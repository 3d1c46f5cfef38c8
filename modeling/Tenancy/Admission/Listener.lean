import Tenancy.Http.Certificate

/-! # Opening the webhook server

The server listens at an address of the machine it runs on, with encryption if there are files for
it. Addresses elsewhere are refused.
-/

namespace Tenancy.Admission

/-- Why an address is refused. -/
def bindRefusal : String := "Permission denied (os error 13)"

/-- Opens the server; nothing more is to be told when it is open. -/
def openServer (files : Files) (address : Http.Address) (tls : Option TlsFiles) :
    Except Failure Unit :=
  let failed (reason : String) : Except Failure Unit := .error (.internal "webhook" reason)
  match tls with
  | none =>
    if address.isLocal then .ok ()
    else failed ("failed to bind " ++ address.render ++ ": " ++ bindRefusal)
  | some tls =>
    match Http.checkTls files tls with
    | .error fault => failed ("failed to load TLS config: " ++ fault.message)
    | .ok () => if address.isLocal then .ok () else failed bindRefusal

end Tenancy.Admission
