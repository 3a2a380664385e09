import Crewd.Bus.Soundness

/-! What `cell_await` promises and what it keeps. In an orderly run no await
misses a reply; out of order, a reply that comes between the first reading of
the ticket and the registration of the waker is lost to the waiter. -/
namespace Crewd.Bus
open Autocommit Concurrent

section Sample

def asked : List (Move (Input Outside) Request Event) :=
  [start, .call (.ask "coder" ⟨["to", "body"], .ok ⟨"reviewer", "ping", [], none, none⟩⟩)] ++
    sections 0 9 1783242000

end Sample
end Crewd.Bus
