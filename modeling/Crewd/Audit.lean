import Crewd.Types

/-! Audit events. The chain is modelled by the drafts whose append was fsynced,
in append order; hashes and identifiers of the events are not part of it. -/
namespace Crewd

def auditKinds : List String := [
  "enqueued", "delivered", "acked", "delivery_failed", "expired", "ask_opened", "ask_expired",
  "duplicate_reply", "acl_changed", "quota_exceeded", "deadlock_prevented",
  "broadcast_fanned_out", "auth_rejected", "spec_version_rejected", "protected_access_denied",
  "registry_changed", "token_revoked",
  "cell_registered", "cell_updated", "cell_spawn_requested", "cell_turn_started",
  "cell_turn_completed", "cell_turn_failed", "cell_cancelled", "cell_timeout", "engine_started",
  "engine_stopped", "worktree_created", "worktree_cleanup"]

structure AuditEventDraft where
  kind : String
  messageId : Option String
  fromCell : Option String
  toCell : Option String
  outcome : String
  detail : Option Json

def assertKind (kind : String) : Except BusError Unit :=
  if kind ∈ auditKinds then .ok () else .error (.internal s!"unknown audit kind: {kind}")

end Crewd
