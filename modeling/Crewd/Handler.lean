import Crewd.World

/-! Request handlers: threads whose critical sections are the lock-protected
parts of the source. An error of a section ends the handler. -/
namespace Crewd
open Autocommit Concurrent

abbrev Thread (S M X K α : Type) := Process (World S M X K) (Input X) α
abbrev Handler (S M X K α : Type) := ExceptT BusError (Process (World S M X K) (Input X)) α

variable {S M X K α β : Type}

/-- One lock-protected section; the input of the section is installed first. -/
def locked (m : Act S M X K α) : Handler S M X K α :=
  ExceptT.mk (Process.critical fun i w => m.exec (w.install i))

def raise (r : Except BusError α) : Handler S M X K α := ExceptT.mk (pure r)

/-- The daemon-authoritative fields that a client must not supply. -/
def forbiddenKeys : List String := ["from_cell", "message_id", "ask_id", "seq", "kind", "taint",
  "created_at", "expires_at", "spec_version", "reply_to", "principal_capabilities"]

def rejectClientIdentityKeys (keys extraAllowed : List String) : Except BusError Unit :=
  match keys.find? fun key => forbiddenKeys.contains key && !extraAllowed.contains key with
  | some key => .error (.internal
      s!"daemon-authoritative field '{key}' must not be client-supplied (SPEC §3.1)")
  | none => .ok ()

def parseParams (params : Params α) : Except BusError α :=
  params.parsed.mapError fun e => .internal s!"bad params: {e}"

def checkBody (body : String) : Except BusError Unit :=
  if body.utf8ByteSize > maxBodyBytes then
    .error (.bodyTooLarge s!"body {body.utf8ByteSize} > {maxBodyBytes} bytes")
  else .ok ()

def checkIdem (key : String) : Except BusError Unit :=
  if key.utf8ByteSize > maxIdempotencyKeyBytes then
    .error (.bodyTooLarge
      s!"idempotency_key {key.utf8ByteSize} > {maxIdempotencyKeyBytes} bytes")
  else .ok ()

end Crewd
