import ModbusPp.Foundation.Span
import ModbusPp.Core.Result

/-! The transport interface (`transport.hpp`) as its users see it: two stateful
operations on whole frames. A fault inside either one is a fault of the caller. -/

namespace ModbusPp

open Foundation

/-- `send` and `receive` (with its timeout in milliseconds) over a state `τ`. -/
structure Transport (τ : Type) where
  send : List UInt8 → τ → Checked (VoidResult × τ)
  receive : ℕ → τ → Checked (Result (List UInt8) × τ)

/-- The frames that so many receives in a row bring in, up to the first that fails. -/
def Transport.incoming {τ : Type} (T : Transport τ) : ℕ → τ → List (List UInt8)
  | 0, _ => []
  | n + 1, net =>
    match T.receive 0 net with
    | .ok (.value frame, net) => frame :: T.incoming n net
    | _ => []

end ModbusPp
