import Tenancy.Proofs.Admission.Endpoint
import Tenancy.Proofs.Json.Agreement
import Tenancy.Proofs.Json.Concordance
import Tenancy.Proofs.Json.Exactness
import Tenancy.Proofs.Json.Located

/-! # The object that a review carries

The body of a review is a text in which the object lies two levels deep. When the endpoints decode the text,
whatever it holds beside the object, what they have of the object is written without loss and has the
specification of the object. Every object that its form takes is carried by some review.
-/

namespace Tenancy.Admission

open Json (lookup decodeWithin HasMember HasItem)

variable {body : List UInt8} {review object stored normal : Json} {request : Request} {verb : Verb}
  {members : List (String × Json)} {fuel depth : Nat} {rest : Json.Input}

/-! ## Bodies that carry an object -/

/-- Where a request that is written as a list has the object. -/
def objectPlace : Nat := 11

/-- The body has the object as that of its request, however the request is written: at that place in the text
the object is read as a document. -/
structure Carries (body : List UInt8) (object : Json) : Prop where
  isObject : ∃ members, object = .object members
  placed : ∃ request start, HasMember body "request" request ∧
    (HasMember request "object" start ∨ HasItem request objectPlace start) ∧
    ∃ fuel depth rest, Json.readDocument fuel depth start = .ok (object, rest)

/-- The body is decoded as a review that asks for something to be done to the object. -/
structure Asks (body : List UInt8) (verb : Verb) (object : Json) : Prop where
  decoded : ∃ review request, reviewForm.read body = .ok review ∧ request? review = some request ∧
    request.verb = verb
  carries : Carries body object

def objectPath : List String := ["request", "object"]

private theorem child?_eq_some {token : String} {child : Json} (found : review.child? token = some child)
    (named : Json.index? token = none) :
    ∃ members, review = .object members ∧ lookup token members = some child := by
  cases review with
  | object members => exact ⟨members, rfl, found⟩
  | array items =>
    rw [Json.child?, named] at found
    cases found
  | _ => cases found

/-- A body that is a document carries the object that the document has there. -/
theorem carries_of_readDocument (read : Json.readDocument fuel depth body = .ok (review, rest))
    (placed : Json.at? objectPath review = some object) (isObject : ∃ members, object = .object members) :
    Carries body object := by
  simp only [objectPath, Json.at?, Option.bind_eq_bind, Option.bind_eq_some_iff, Option.some.injEq,
    exists_eq_right] at placed
  obtain ⟨request, found, held⟩ := placed
  obtain ⟨outer, rfl, found⟩ := child?_eq_some found (by decide)
  obtain ⟨inner, rfl, held⟩ := child?_eq_some held (by decide)
  obtain ⟨next, hasRequest, less, room, after, within⟩ := Json.hasMember_of_readDocument read found
  obtain ⟨start, hasObject, fewer, narrow, last, document⟩ := Json.hasMember_of_readDocument within held
  exact ⟨isObject, next, start, hasRequest, .inl hasObject, fewer, narrow, last, document⟩

theorem isOrdered_of_carries (carries : Carries body object) : object.isOrdered := by
  obtain ⟨_, _, _, _, fuel, depth, rest, read⟩ := carries.placed
  exact (Json.wellRead_of_readDocument (Nat.succ_pos depth)
    (Json.readDocument_mono (Nat.le_succ depth) read)).1

/-! ## What the form of an object keeps -/

private theorem fieldsOfObject_isLenient :
    (Json.Fields.ofList [.filled "metadata" (.object []) Metadata.form]).isLenient := by
  decide

private theorem fieldsOfObject_isExact :
    (Json.Fields.ofList [.filled "metadata" (.object []) Metadata.form]).isExact := by
  decide

/-- A document that stands for an object: it can be written, and has the specification of the object. -/
structure Faithful (carried object : Json) : Prop where
  isCarried : Carried carried
  integral : carried.isIntegral
  spec : carried.get? "spec" = object.get? "spec"

/-- The object of the request is read where the body has it, by the form of an object. -/
theorem Carries.read (carries : Carries body object) (decoded : reviewForm.read body = .ok review)
    (held : request? review = some request) :
    ∃ start carried, (∃ fuel rest, Json.readTyped fuel objectForm 126 start = .ok (carried, rest)) ∧
      (∃ fuel depth rest, Json.readDocument fuel depth start = .ok (object, rest)) ∧
      request.object = some carried := by
  obtain ⟨next, start, hasRequest, hasObject, document⟩ := carries.placed
  obtain ⟨members, rfl⟩ := carries.isObject
  obtain ⟨_, _, _, read⟩ := document
  obtain ⟨_, brace⟩ := Json.start_of_readDocument_object read
  obtain ⟨b, _, begins, noNull⟩ : ∃ b left, Json.skipSpace next = b :: left ∧ b ≠ Json.ascii 'n' := by
    rcases hasObject with ⟨left, found, -⟩ | ⟨left, found, -⟩
    · exact ⟨_, left, found, by decide⟩
    · exact ⟨_, left, found, by decide⟩
  rw [Json.Schema.read] at decoded
  obtain ⟨⟨value, rest⟩, typed, decoded⟩ := bind_eq_ok.mp decoded
  obtain ⟨-, -, same⟩ := bind_eq_ok.mp decoded
  cases same
  obtain ⟨_, inner, _, innerTyped, found⟩ := Json.readTyped_of_field rfl begins noNull
    (Json.readField_of_hasMember (.optional "request" requestForm) rfl rfl (by decide) typed hasRequest)
  have taken : ∃ less value after, Json.readField less (.optionalPlaced "object" objectForm) 126 start =
      .ok (value, after) ∧ (value ≠ .null → inner.get? "object" = some value) := by
    rcases hasObject with member | item
    · exact Json.readField_of_hasMember _ rfl rfl (by decide) innerTyped member
    · exact Json.readField_of_hasItem (by decide) rfl innerTyped item
  obtain ⟨fuel, carried, after, carriedTyped, present⟩ := Json.readTyped_of_field rfl brace (by decide) taken
  rw [request?, found, Option.map_some, Option.some.injEq] at held
  exact ⟨start, carried, ⟨fuel, after, carriedTyped⟩, ⟨_, _, _, read⟩, held ▸ present⟩

/-- The request has an object, which stands for the one that the body carries. -/
theorem Carries.faithful (carries : Carries body object) (decoded : reviewForm.read body = .ok review)
    (held : request? review = some request) (integral : object.isIntegral) :
    ∃ carried, request.object = some carried ∧ Faithful carried object := by
  obtain ⟨start, carried, ⟨_, _, typed⟩, ⟨_, _, _, read⟩, present⟩ := carries.read decoded held
  obtain ⟨members, rfl⟩ := carries.isObject
  obtain ⟨-, texts, got, normal, rfl, within, complete, rfl⟩ :=
    Json.membersWithin_of_readTyped fieldsOfObject_isLenient typed read
  refine ⟨_, present, carried_of_request decoded held present, ?_, ?_⟩
  · exact Json.isIntegral_object.mpr (Json.isIntegral_keep fieldsOfObject_isExact
      (Json.isIntegral_object.mp integral) within complete)
  · rw [Json.get?, Json.get?, Json.lookup_surplus within complete (by decide) (by decide),
      Json.lookup_ofMembers]

/-- What a review carries, the form of an object takes. -/
theorem Carries.taken (carries : Carries body object) (decoded : reviewForm.read body = .ok review)
    (held : request? review = some request) :
    ∃ normal, decodeWithin object 126 objectForm = some normal := by
  obtain ⟨start, carried, ⟨_, _, typed⟩, ⟨_, _, _, read⟩, -⟩ := carries.read decoded held
  obtain ⟨members, rfl⟩ := carries.isObject
  obtain ⟨deep, texts, got, normal, rfl, within, complete, -⟩ :=
    Json.membersWithin_of_readTyped fieldsOfObject_isLenient typed read
  exact Json.exists_decodeWithin_keep deep within complete

/-! ## Reviews that are documents -/

/-- A review in order is a body that carries its object. -/
theorem carries_encode (integral : review.isIntegral) (ordered : review.isOrdered)
    (placed : Json.at? objectPath review = some object) (isObject : ∃ members, object = .object members) :
    Carries review.encode object := by
  have read := Json.readsBack review integral review.encode.length (review.depth + 1) []
    (Nat.lt_succ_self _) (Nat.le_refl _) rfl
  rw [List.append_nil, Json.sorted_eq_self review ordered] at read
  exact carries_of_readDocument read placed isObject

/-- The members of a review and of its request, on the way to the object. -/
structure Parts (review : Json) (verb : Verb) (object : Json) (outer inner : List (String × Json)) :
    Prop where
  review_eq : review = .object outer
  request : lookup "request" outer = some (.object inner)
  operation : lookup "operation" inner = some (.string verb.wireName)
  object : lookup "object" inner = some object

theorem exists_parts_asking (verb : Verb) (object : Json) :
    ∃ outer inner, Parts (asking verb object) verb object outer inner :=
  ⟨_, _, rfl, rfl, rfl, rfl⟩

namespace Parts

variable {outer inner : List (String × Json)}

/-- The review with another object in exchange. -/
def withObject (outer inner : List (String × Json)) (stored : Json) : Json :=
  .object (Json.insert "request" (.object (Json.insert "object" stored inner)) outer)

/-- The exchanged object stands where the review carries its object. -/
theorem at?_withObject (stored : Json) : Json.at? objectPath (withObject outer inner stored) = some stored := by
  simp [objectPath, Json.at?, Json.child?, withObject]

theorem isIntegral_withObject (parts : Parts review verb object outer inner)
    (integral : review.isIntegral) (exact : stored.isIntegral) :
    (withObject outer inner stored).isIntegral := by
  rw [parts.review_eq, Json.isIntegral_object] at integral
  have request := Json.isIntegral_object.mp (integral _ (Json.mem_of_lookup parts.request))
  apply Json.isIntegral_object.mpr
  intro m present
  rcases Json.mem_insert present with rfl | kept
  · apply Json.isIntegral_object.mpr
    intro m present
    rcases Json.mem_insert present with rfl | kept
    · exact exact
    · exact request m kept
  · exact integral m kept

theorem isOrdered_withObject (parts : Parts review verb object outer inner)
    (ordered : review.isOrdered) (sorted : stored.isOrdered) :
    (withObject outer inner stored).isOrdered := by
  rw [parts.review_eq, Json.isOrdered_object] at ordered
  have request := Json.isOrdered_object.mp (ordered.2 _ (Json.mem_of_lookup parts.request))
  refine Json.isOrdered_object.mpr ⟨ordered.1.insert, fun m present => ?_⟩
  rcases Json.mem_insert present with rfl | kept
  · refine Json.isOrdered_object.mpr ⟨request.1.insert, fun m present => ?_⟩
    rcases Json.mem_insert present with rfl | kept
    · exact sorted
    · exact request.2 m kept
  · exact ordered.2 m kept

/-- Exchanging the object of a review keeps every other part of it in its place. -/
theorem exchanged (parts : Parts review verb object outer inner) (stored : Json) :
    Parts (withObject outer inner stored) verb stored
      (Json.insert "request" (.object (Json.insert "object" stored inner)) outer)
      (Json.insert "object" stored inner) where
  review_eq := rfl
  request := Json.lookup_insert_self
  operation := by rw [Json.lookup_insert_of_ne (by decide), parts.operation]
  object := Json.lookup_insert_self

/-- A review with a request is long enough for the reader. -/
theorem width_le (parts : Parts review verb object outer inner) :
    reviewForm.width ≤ review.encode.length + 3 := by
  have width : reviewForm.width = 16 := by decide
  have first : (Json.textBytes "request").length = 7 := by decide
  have second : (Json.textBytes "object").length = 6 := by decide
  have request := Json.length_le_length_object (Json.mem_of_lookup parts.request)
  have held := Json.length_le_length_object (Json.mem_of_lookup parts.object)
  rw [parts.review_eq]
  omega

/-- Reading the written review is decoding it within the reader's limit, once its numbers are whole and its
members in order. -/
theorem read_encode (parts : Parts review verb object outer inner) (integral : review.isIntegral)
    (ordered : review.isOrdered) : (reviewForm.read review.encode).toOption =
      decodeWithin review Json.depthLimit reviewForm :=
  Json.Schema.read_encode integral ordered parts.width_le

/-- What the request of a decoded review asks for. -/
theorem request_of_decoded (parts : Parts review verb object outer inner) (ordered : review.isOrdered)
    (decoded : decodeWithin review Json.depthLimit reviewForm = some normal) :
    ∃ request, request? normal = some request ∧ request.verb = verb := by
  rw [parts.review_eq] at decoded ordered
  obtain ⟨increasing, ordered⟩ := Json.isOrdered_object.mp ordered
  have increasingInner := (Json.isOrdered_object.mp (ordered _ (Json.mem_of_lookup parts.request))).1
  obtain ⟨request, read, found⟩ := Json.get?_decodeWithin (.optional "request" requestForm) decoded
    increasing rfl (by decide) parts.request
  rw [Json.Field.take_object] at read
  obtain ⟨asked, askedRead, asks⟩ := Json.get?_decodeWithin
    (.required "operation" (.choice (Verb.all.map Verb.wireName))) read increasingInner rfl (by decide)
    parts.operation
  have known : verb.wireName ∈ Verb.all.map Verb.wireName := by cases verb <;> decide
  obtain rfl : asked = .string verb.wireName := by
    rw [Json.Field.take, if_neg (by simp [Json.isNull])] at askedRead
    change decodeWithin (.string verb.wireName) _ (.choice (Verb.all.map Verb.wireName)) = _ at askedRead
    rw [decodeWithin, if_pos known] at askedRead
    exact (Option.some.inj askedRead).symm
  obtain ⟨parts, rfl⟩ := Json.object_of_decodeWithin_record read
  refine ⟨.ofNormal (.ofNormal normal) (.object parts), ?_, ?_⟩
  · rw [request?, found (by simp), Option.map_some]
  · have text : (Json.object parts).textAt? "operation" = some verb.wireName := by
      rw [Json.textAt?, asks (by simp)]
      rfl
    change (((Json.object parts).textAt? "operation").bind Verb.ofWireName?).getD .create = verb
    rw [text]
    cases verb <;> rfl

/-- With another object that its form takes, a review is still decoded. -/
theorem decoded_withObject (parts : Parts review verb object outer inner) (ordered : review.isOrdered)
    (isObject : ∃ members, object = .object members) {carried : Json} {members : List (String × Json)}
    (decoded : decodeWithin review Json.depthLimit reviewForm = some normal)
    (taken : decodeWithin (.object members) 126 objectForm = some carried) :
    ∃ other, decodeWithin (withObject outer inner (.object members)) Json.depthLimit reviewForm =
      some other := by
  obtain ⟨before, rfl⟩ := isObject
  rw [parts.review_eq] at decoded ordered
  obtain ⟨increasing, ordered⟩ := Json.isOrdered_object.mp ordered
  have increasingInner := (Json.isOrdered_object.mp (ordered _ (Json.mem_of_lookup parts.request))).1
  obtain ⟨request, read, -⟩ := Json.get?_decodeWithin (.optional "request" requestForm) decoded
    increasing rfl (by decide) parts.request
  rw [Json.Field.take_object] at read
  have record {members : List (String × Json)} {field : Json.Field} {depth : Nat} {layout : Json.Layout}
      {fields : Json.Fields} (form : field.form = .record layout fields) :
      field.take (.object members) (decodeWithin (.object members) depth field.form) ≠ some .null := by
    rw [Json.Field.take_object, form]
    intro null
    obtain ⟨_, same⟩ := Json.object_of_decodeWithin_record null
    cases same
  obtain ⟨_, rfl⟩ := Json.object_of_decodeWithin_record taken
  obtain ⟨exchanged, innerRead, -⟩ := Json.decodeWithin_exchange (.optionalPlaced "object" objectForm) read
    increasingInner rfl (by decide) parts.object (record rfl) (Json.Field.take_object.trans taken) rfl
    (by simp)
  obtain ⟨_, rfl⟩ := Json.object_of_decodeWithin_record innerRead
  obtain ⟨other, outerRead, -⟩ := Json.decodeWithin_exchange (.optional "request" requestForm) decoded
    increasing rfl (by decide) parts.request (record rfl) (Json.Field.take_object.trans innerRead) rfl
    (by simp)
  exact ⟨other, outerRead⟩

end Parts

private theorem decoded_asking (verb : Verb) :
    ∃ normal, decodeWithin (asking verb acme) Json.depthLimit reviewForm = some normal := by
  have decoded : (decodeWithin (asking verb acme) Json.depthLimit reviewForm).isSome := by
    cases verb <;> decide +kernel
  exact Option.isSome_iff_exists.mp decoded

/-- Whatever is asked for, some review asks it of every object that the form of an object takes. -/
theorem exists_asks (verb : Verb) {carried : Json} (integral : (Json.object members).isIntegral)
    (ordered : (Json.object members).isOrdered)
    (taken : decodeWithin (.object members) 126 objectForm = some carried) :
    ∃ body, Asks body verb (.object members) := by
  have plain : (asking verb acme).isIntegral ∧ (asking verb acme).isOrdered := by
    cases verb <;> decide +kernel
  obtain ⟨outer, inner, parts⟩ := exists_parts_asking verb acme
  obtain ⟨normal, decoded⟩ := decoded_asking verb
  obtain ⟨other, exchanged⟩ := parts.decoded_withObject plain.2 ⟨_, rfl⟩ decoded taken
  have exact := parts.isIntegral_withObject plain.1 integral
  have sorted := parts.isOrdered_withObject plain.2 ordered
  have others := parts.exchanged (.object members)
  obtain ⟨request, held, asks⟩ := others.request_of_decoded sorted exchanged
  refine ⟨_, ⟨other, request, Json.toOption_eq_some.mp ?_, held, asks⟩,
    carries_encode exact sorted (Parts.at?_withObject _) ⟨members, rfl⟩⟩
  rw [others.read_encode exact sorted, exchanged]

end Tenancy.Admission
