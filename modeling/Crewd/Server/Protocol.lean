import Crewd.Framing
import Crewd.Handshake
import Crewd.Reading

/-! Requests and responses on the socket. A request names a method, a response carries the
number of its request with a result or an error, and each is one line; what is known of the
reader is that it reads back the lines that the two sides write. -/
namespace Crewd.Server

structure WireRequest where
  id : Nat
  method : String
  params : Json

structure WireResponse where
  id : Nat
  result : Option Json
  error : Option WireError

namespace WireResponse

def ok (id : Nat) (result : Json) : WireResponse := ⟨id, some result, none⟩

def err (id : Nat) (e : BusError) : WireResponse := ⟨id, none, some ⟨e.code, e.display⟩⟩

end WireResponse

/-- What the handler of a call comes to. -/
def WireResponse.of (id : Nat) : Except BusError Json → WireResponse
  | .ok v => .ok id v
  | .error e => .err id e

/-- The readers of `serde_json` for the types of the socket. -/
class WireReader where
  request : List UInt8 → Option WireRequest
  response : List UInt8 → Except String WireResponse
  proof : Json → Option ClientProof

section Lines

/-- `serde_json::to_vec`. -/
def WireRequest.line (req : WireRequest) : List UInt8 := utf8 (Json.obj [
  ("id", .num req.id), ("method", .str req.method), ("params", req.params)]).render

def WireResponse.fields (resp : WireResponse) : List (String × Json) :=
  ("id", .num resp.id) :: (resp.result.toList.map fun v => ("result", v)) ++
    resp.error.toList.map fun e =>
      ("error", Json.obj [("code", .str e.code), ("message", .str e.message)])

/-- A field that is not there is not written. -/
def WireResponse.line (resp : WireResponse) : List UInt8 := utf8 (Json.obj resp.fields).render

theorem newline_not_request (req : WireRequest) : newline ∉ req.line :=
  newline_not_mem (Json.newline_not_rendered _)

theorem newline_not_answer (resp : WireResponse) : newline ∉ resp.line :=
  newline_not_mem (Json.newline_not_rendered _)

/-- What is read of a response: a result of `null` is read as none. -/
def WireResponse.readBack (resp : WireResponse) : WireResponse :=
  { resp with result := resp.result.bind fun v => match v with
    | .null => none
    | v => some v }

/-- A value that is read back as a member of a request or a response. -/
def Member (v : Json) : Prop := v.Ordered ∧ v.Readable (readDepth - 1)

def WireRequest.Plain (req : WireRequest) : Prop := req.id < 2 ^ 64 ∧ Member req.params

def WireResponse.Plain (resp : WireResponse) : Prop :=
  resp.id < 2 ^ 64 ∧ ∀ v ∈ resp.result, Member v

/-- The readers read back what is written, and take no part of a response for one. -/
structure ReadsWire [WireReader] : Prop where
  request : ∀ req : WireRequest, req.Plain → WireReader.request req.line = some req
  response : ∀ resp : WireResponse, resp.Plain → WireReader.response resp.line = .ok resp.readBack
  cut : ∀ (resp : WireResponse) (bytes rest : List UInt8), rest ≠ [] →
    bytes ++ rest = resp.line → ∃ e, WireReader.response bytes = .error e

theorem utf8_injective : Function.Injective utf8 := by
  intro a b same
  have encoded : a.utf8Encode = b.utf8Encode := congrArg List.toByteArray same
  have decoded := congrArg ByteArray.utf8Decode? encoded
  rw [List.utf8Decode?_utf8Encode, List.utf8Decode?_utf8Encode] at decoded
  simpa using decoded

theorem utf8_cut {text whole : List Char} {rest : List UInt8}
    (same : utf8 text ++ rest = utf8 whole) : ∃ more, whole = text ++ more := by
  induction text generalizing whole with
  | nil => exact ⟨whole, rfl⟩
  | cons c text ih =>
    cases whole with
    | nil =>
      have lengths := congrArg List.length same
      have one : 0 < (String.utf8EncodeChar c).length := by simp [Char.utf8Size_pos]
      simp only [utf8, List.flatMap_cons, List.flatMap_nil, List.length_append,
        List.length_nil] at lengths
      omega
    | cons d whole =>
      rw [utf8, List.flatMap_cons, List.append_assoc, utf8, List.flatMap_cons] at same
      have decoded : some c = some d := by
        have bytes := congrArg List.toByteArray same
        rw [List.toByteArray_append, List.toByteArray_append] at bytes
        have first := congrArg (ByteArray.utf8DecodeChar? · 0) bytes
        simpa [ByteArray.utf8DecodeChar?_utf8EncodeChar_append] using first
      obtain rfl := Option.some.inj decoded
      obtain ⟨more, rfl⟩ := ih (List.append_cancel_left same)
      exact ⟨more, rfl⟩

theorem WireRequest.line_injective : Function.Injective WireRequest.line := by
  intro a b same
  have fields := Json.render_injective (utf8_injective same)
  obtain ⟨_, _, _⟩ := a
  obtain ⟨_, _, _⟩ := b
  simpa using fields

theorem WireResponse.line_injective : Function.Injective WireResponse.line := by
  intro a b same
  have fields := Json.render_injective (utf8_injective same)
  have errors : ∀ e f : WireError, e = f ↔ e.code = f.code ∧ e.message = f.message := by
    rintro ⟨code, message⟩ ⟨code', message'⟩
    simp
  obtain ⟨id, result, error⟩ := a
  obtain ⟨id', result', error'⟩ := b
  cases result <;> cases error <;> cases result' <;> cases error' <;>
    simp_all [WireResponse.fields]

open Classical in
/-- Readers that read what is written, and nothing else. -/
noncomputable abbrev WireReader.ofWritten : WireReader where
  request bytes := if written : ∃ req : WireRequest, req.line = bytes then some written.choose else none
  response bytes := if written : ∃ resp : WireResponse, resp.line = bytes then
    .ok written.choose.readBack else .error "EOF while parsing a value"
  proof params := match params with
    | .obj [("cell_id", .str cellId), ("spec_version", .str version), ("token", .str token)] =>
      some ⟨cellId, token, version⟩
    | _ => none

theorem ofWritten_request (req : WireRequest) :
    WireReader.ofWritten.request req.line = some req := by
  have written : ∃ other : WireRequest, other.line = req.line := ⟨req, rfl⟩
  have read : WireReader.ofWritten.request req.line = some written.choose := dif_pos written
  rw [read, WireRequest.line_injective written.choose_spec]

theorem ofWritten_response (resp : WireResponse) :
    WireReader.ofWritten.response resp.line = .ok resp.readBack := by
  have written : ∃ other : WireResponse, other.line = resp.line := ⟨resp, rfl⟩
  have read : WireReader.ofWritten.response resp.line = .ok written.choose.readBack :=
    dif_pos written
  rw [read, WireResponse.line_injective written.choose_spec]

theorem readsWire_ofWritten : @ReadsWire WireReader.ofWritten := by
  let _ := WireReader.ofWritten
  constructor
  · exact fun req _ => ofWritten_request req
  · exact fun resp _ => ofWritten_response resp
  · intro resp bytes rest more same
    refine ⟨_, dif_neg ?_⟩
    rintro ⟨other, rfl⟩
    obtain ⟨later, whole⟩ := utf8_cut same
    cases later with
    | nil =>
      rw [WireResponse.line, WireResponse.line, whole, List.append_nil] at same
      exact more (List.append_right_eq_self.mp same)
    | cons c later => exact Json.render_not_cut (by simp) whole.symm

end Lines

section Methods

/-- The methods that are dispatched to a handler. -/
def methods : List String := ["cell_send", "cell_ask", "cell_await", "cell_reply", "cell_inbox",
  "cell_list", "cell_broadcast", "cell_spawn", "cell_send_task", "cell_status", "cell_result",
  "cell_cancel", "report_tool_correlation", "op_status", "op_inspect", "op_audit_verify"]

def unknownMethod (method : String) : BusError := .internal s!"unknown method: {method}"

end Methods
end Crewd.Server
