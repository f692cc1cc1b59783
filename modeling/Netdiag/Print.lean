import Netdiag.Lib.Text
import Netdiag.Machine

/-!
# Print — lines in the arrays of callers

The functions that turn an event into a line write it with `snprintf` into an array of the caller,
who says how long it is.  A length that is not too long is kept to, and a line that does not fit is
cut off (`snprintf_of_le`).
-/

namespace Netdiag

open Lib

/-- `snprintf`, with the text that the format makes.  Its result is not looked at.  A character
that is written behind the array is a fault. -/
def snprintf (buf : List Char) (max : Nat) (text : List Char) : Except Fault (List Char) :=
  if max = 0 then .ok buf
  else if (terminated max text).length ≤ buf.length then
    .ok (overwrite buf 0 (terminated max text))
  else .error (.outOfBounds buf.length)

/-- The array holds as much of the text as there was room for, and is the same behind that. -/
structure Printed (buf : List Char) (max : Nat) (text out : List Char) : Prop where
  text : textOf out = text.take (max - 1)
  rest : out.drop max = buf.drop max
  length : out.length = buf.length

theorem snprintf_of_le {buf text : List Char} {max : Nat} (hpos : 0 < max) (hmax : max ≤ buf.length)
    (hnul : nul ∉ text) : ∃ out, snprintf buf max text = .ok out ∧ Printed buf max text out := by
  have hlen := length_terminated_le hpos text
  have hroom : 0 + (terminated max text).length ≤ buf.length := by omega
  refine ⟨overwrite buf 0 (terminated max text), ?_, textOf_overwrite hnul, ?_,
    length_overwrite hroom⟩
  · rw [snprintf, if_neg hpos.ne', if_pos (by omega)]
  · exact drop_overwrite_of_le (by omega) hmax

/-- A line that fits is all there. -/
theorem Printed.text_of_lt {buf text out : List Char} {max : Nat} (h : Printed buf max text out)
    (hlen : text.length < max) : textOf out = text := by
  rw [h.text, List.take_of_length_le (by omega)]

end Netdiag
