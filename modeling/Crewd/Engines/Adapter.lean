import Crewd.Fabric.Store
import Crewd.Reading

/-! What the engine adapters share: how a child process is spawned, what becomes of a
request that is written to it, and the part of a foreign text that an error may quote. -/
namespace Crewd

namespace Engines
open Fabric (EngineEvent)

inductive EngineProcState where
  | up
  | down
deriving DecidableEq, Repr

structure ProfileDef where
  baseUrl : String
  model : String
  apiKeyEnv : String
deriving DecidableEq, Repr

structure EngineSpawnCfg where
  cwd : String
  model : Option String
  profile : Option String
  timeoutSecs : Nat
  binOverride : Option String
  spawnDirect : Bool
  keysEnvPath : Option String
  profileDef : Option ProfileDef
  shimArgs : List String
deriving DecidableEq, Repr

/-- What is spawned; without `env` the child inherits the environment of the daemon. -/
structure Command where
  program : String
  args : List String
  cwd : String
  env : Option (List (String × String))
deriving DecidableEq, Repr

/-- What becomes of a request line: it is written, or the write or the flush fails. -/
inductive Sending where
  | sent
  | unwritten (error : String)
  | unflushed (error : String)
deriving DecidableEq, Repr

/-- The line is in the pipe. -/
def Sending.arrives : Sending → Bool
  | sent | unflushed _ => true
  | unwritten _ => false

/-- At most eight characters, on one line. -/
def safePrefix (s : String) : String :=
  .ofList ((s.toList.take 8).map fun c => if c = '\n' ∨ c = '\r' then ' ' else c)

/-- How a text prints under `{:?}`, but for the characters beyond ASCII that print as numbers. -/
def debugChar (c : Char) : List Char :=
  if c = '"' then ['\\', '"']
  else if c = '\\' then ['\\', '\\']
  else match c.toNat with
    | 0 => ['\\', '0']
    | 9 => ['\\', 't']
    | 10 => ['\\', 'n']
    | 13 => ['\\', 'r']
    | n => if n < 32 ∨ n = 127 then ['\\', 'u', '{'] ++ Nat.toDigits 16 n ++ ['}'] else [c]

def debugText (s : String) : String := .ofList ('"' :: s.toList.flatMap debugChar ++ ['"'])

def debugOption : Option String → String
  | none => "None"
  | some s => "Some(" ++ debugText s ++ ")"

end Engines
end Crewd
