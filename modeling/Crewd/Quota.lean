import Mathlib.Logic.Function.Basic
import Crewd.Acl

/-! Sliding-window rate limits per sender and per sender and capability, the
pending-ask cap and the queue depth. Times are milliseconds. -/
namespace Crewd

def windowMs : Nat := 60000

structure QuotaConfig where
  senderPerMin : Nat
  askPerMin : Nat
  broadcastPerMin : Nat
  attachFilesPerMin : Nat
  wakePerMin : Nat
  adminRegistryPerMin : Nat
  pendingAskCap : Nat
  queueDepth : Nat
deriving DecidableEq

def QuotaConfig.default : QuotaConfig := ⟨60, 20, 5, 10, 10, 10, 10, 1000⟩

/-- Windows hold the times of accepted units, oldest first; a sender without an
entry has the empty window. -/
structure QuotaTracker where
  config : QuotaConfig
  perSender : String → List Nat
  perCapability : String × Capability → List Nat

def prune (nowMs : Nat) : List Nat → List Nat
  | [] => []
  | front :: later => if nowMs - front ≥ windowMs then prune nowMs later else front :: later

namespace QuotaTracker

def new (config : QuotaConfig) : QuotaTracker := ⟨config, fun _ => [], fun _ => []⟩

def capabilityCeiling (quota : QuotaTracker) : Capability → Option Nat
  | .ask => some quota.config.askPerMin
  | .broadcast => some quota.config.broadcastPerMin
  | .attachFiles => some quota.config.attachFilesPerMin
  | .wake => some quota.config.wakePerMin
  | .adminRegistry => some quota.config.adminRegistryPerMin
  | _ => none

def noteAndCheckSender (quota : QuotaTracker) (sender : String) (nowMs fanoutUnits : Nat) :
    Except BusError Unit × QuotaTracker :=
  let window := prune nowMs (quota.perSender sender)
  if window.length + fanoutUnits > quota.config.senderPerMin then
    (.error (.quota s!"sender {sender} exceeded {quota.config.senderPerMin}/min"),
      { quota with perSender := Function.update quota.perSender sender window })
  else
    let charged := window ++ List.replicate fanoutUnits nowMs
    (.ok (), { quota with perSender := Function.update quota.perSender sender charged })

def noteAndCheckCapability (quota : QuotaTracker) (sender : String) (cap : Capability)
    (nowMs : Nat) : Except BusError Unit × QuotaTracker :=
  match quota.capabilityCeiling cap with
  | none => (.ok (), quota)
  | some ceiling =>
    let window := prune nowMs (quota.perCapability (sender, cap))
    if window.length ≥ ceiling then
      (.error (.quota s!"capability {cap.asStr} for {sender} exceeded {ceiling}/min"),
        { quota with perCapability := Function.update quota.perCapability (sender, cap) window })
    else
      let charged := window ++ [nowMs]
      (.ok (), { quota with
        perCapability := Function.update quota.perCapability (sender, cap) charged })

theorem noteAndCheckSender_config (quota : QuotaTracker) (sender : String) (nowMs units : Nat) :
    (quota.noteAndCheckSender sender nowMs units).2.config = quota.config := by
  simp only [noteAndCheckSender]
  split <;> rfl

theorem noteAndCheckCapability_config (quota : QuotaTracker) (sender : String) (cap : Capability)
    (nowMs : Nat) : (quota.noteAndCheckCapability sender cap nowMs).2.config = quota.config := by
  simp only [noteAndCheckCapability]
  split
  · rfl
  · split <;> rfl

def checkQueueDepth (quota : QuotaTracker) (pending : Nat) : Except BusError Unit :=
  if pending ≥ quota.config.queueDepth then
    .error (.quota s!"recipient queue full ({pending} pending)")
  else .ok ()

def checkPendingAskCap (quota : QuotaTracker) (openAsks : Nat) : Except BusError Unit :=
  if openAsks ≥ quota.config.pendingAskCap then
    .error (.quota s!"pending-ask cap reached ({openAsks} open)")
  else .ok ()

end QuotaTracker
end Crewd
