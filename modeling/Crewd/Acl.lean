import Crewd.Types
import Crewd.Lib.Table

/-! Capability ACL: registered cells, their capabilities, and the per-target
grants that open protected cells. Loading keeps cells in name order. -/
namespace Crewd

inductive Capability where
  | send
  | ask
  | reply
  | broadcast
  | readInbox
  | listCells
  | attachFiles
  | wake
  | spawn
  | adminRegistry
  | readAudit
deriving DecidableEq, Repr

def Capability.asStr : Capability → String
  | send => "send"
  | ask => "ask"
  | reply => "reply"
  | broadcast => "broadcast"
  | readInbox => "read_inbox"
  | listCells => "list_cells"
  | attachFiles => "attach_files"
  | wake => "wake"
  | spawn => "spawn"
  | adminRegistry => "admin_registry"
  | readAudit => "read_audit"

/-- Per-target reach check selector. -/
inductive ReachVia where
  | send
  | ask
deriving DecidableEq

structure CellAcl where
  capabilities : List Capability
  isProtected : Bool
  sendToProtected : List String
  askProtected : List String
  engine : String
  orderPreserving : Bool
deriving DecidableEq

/-- Registered cells, each name once and in ascending order. -/
structure Acl where
  cells : List (String × CellAcl)
  sorted : cells.Pairwise (fun a b => a.1 < b.1)
deriving DecidableEq

namespace Acl

def empty : Acl := ⟨[], .nil⟩

def get (acl : Acl) (name : String) : Option CellAcl := acl.cells.lookup name

def check (acl : Acl) (caller : String) (cap : Capability) : Except BusError Unit :=
  match acl.get caller with
  | some c =>
    if cap ∈ c.capabilities then .ok ()
    else .error (.aclDenied s!"{caller} lacks capability {cap.asStr}")
  | none => .error (.aclDenied s!"{caller} lacks capability {cap.asStr}")

/-- A non-protected target is always reachable; a protected one needs the
matching per-target grant. -/
def checkReach (acl : Acl) (caller target : String) (via : ReachVia) : Except BusError Unit :=
  match acl.get caller with
  | none => .error (.aclDenied s!"unknown cell {caller}")
  | some c =>
    let targetProtected := ((acl.get target).map (·.isProtected)).getD false
    if !targetProtected then .ok ()
    else
      let granted := match via with
        | .send => c.sendToProtected.contains target
        | .ask => c.askProtected.contains target
      if granted then .ok ()
      else .error (.aclDenied s!"{caller} lacks per-target grant to protected cell {target}")

def isRegistered (acl : Acl) (name : String) : Bool := (acl.get name).isSome

def capabilitiesOf (acl : Acl) (cell : String) : List String :=
  match acl.get cell with
  | some c => c.capabilities.map Capability.asStr
  | none => []

/-- Broadcast fan-out `(included, denied)`: every registered cell but the sender,
protected ones only with a matching grant. -/
def recipientsForBroadcast (acl : Acl) (caller : String) : List String × List String :=
  match acl.get caller with
  | none => ([], [])
  | some sender =>
    let peers := acl.cells.filter fun (name, _) => name ≠ caller
    let (included, denied) := peers.partition fun (name, c) =>
      if c.isProtected then sender.sendToProtected.contains name else true
    (included.map (·.1), denied.map (·.1))

variable {acl : Acl} {cell sender : String} {c own : CellAcl}

theorem names_nodup (acl : Acl) : (acl.cells.map (·.1)).Nodup :=
  (List.pairwise_map.mpr acl.sorted).imp fun less => String.ne_of_lt less

theorem get_eq_some_iff : acl.get cell = some c ↔ (cell, c) ∈ acl.cells :=
  ⟨Table.mem_of_lookup, Table.lookup_of_mem acl.names_nodup⟩

theorem recipientsForBroadcast_of_registered (registered : acl.get sender = some own) :
    acl.recipientsForBroadcast sender =
      ((((acl.cells.filter fun entry => entry.1 ≠ sender).filter fun entry =>
        if entry.2.isProtected then own.sendToProtected.contains entry.1 else true).map (·.1)),
      (((acl.cells.filter fun entry => entry.1 ≠ sender).filter fun entry =>
        !(if entry.2.isProtected then own.sendToProtected.contains entry.1 else true)).map (·.1))) := by
  rw [recipientsForBroadcast, registered]
  simp only [List.partition_eq_filter_filter]
  rfl

/-- A fan-out lists each recipient once. -/
theorem recipientsForBroadcast_nodup (acl : Acl) (sender : String) :
    (acl.recipientsForBroadcast sender).1.Nodup := by
  cases registered : acl.get sender with
  | none =>
    rw [recipientsForBroadcast, registered]
    exact List.nodup_nil
  | some own =>
    rw [recipientsForBroadcast_of_registered registered]
    exact acl.names_nodup.sublist ((List.filter_sublist.trans List.filter_sublist).map _)

end Acl
end Crewd
