import Netdiag.Lib.Overwrite
import Netdiag.Netlink.Msg

/-!
# Payload — attributes and messages with other bytes in them

Overwriting the payload of an attribute gives the nest around it the same attributes but for that
payload (`attrs_overwrite`), whatever the payload was or becomes: a walk looks at the headers of
its own attributes only.  In the same way a message whose inside is overwritten stays between the
messages around it (`frames_overwrite`).
-/

namespace Netdiag

open Lib

/-! ## Attributes -/

theorem nlaFraming_size_overwrite {xs q : List UInt8} {k : Nat}
    (hs : nlaFraming.size xs = some k) (hq : 4 + q.length = k) :
    nlaFraming.size (overwrite xs 4 q) = some k := by
  rcases nlaFraming_size_eq_some.1 hs with ⟨hheader, hmin, hmax, hlen⟩
  -- The length stands in front of the payload.
  have hsame : le16At (overwrite xs 4 q) 0 = le16At xs 0 := by
    rw [← le16At_take (by omega : 0 + 2 ≤ 4), take_overwrite_of_le le_rfl hheader,
      le16At_take (by omega)]
  refine nlaFraming_size_eq_some.2 ⟨?_, hmin, ?_, hsame.symm ▸ hlen⟩
  · rw [length_overwrite (by omega)]
    exact hheader
  · rw [length_overwrite (by omega)]
    exact hmax

theorem Attr.ofBytes_overwrite {m q : List UInt8} (h : 4 + q.length = m.length) :
    Attr.ofBytes (overwrite m 4 q) = { Attr.ofBytes m with payload := q } := by
  have htype : le16At (overwrite m 4 q) 2 = le16At m 2 := by
    rw [← le16At_take (by omega : 2 + 2 ≤ 4), take_overwrite_of_le le_rfl (by omega),
      le16At_take (by omega)]
  rw [Attr.ofBytes, Attr.ofBytes, htype, drop_overwrite_end h]

section Nest

variable {xs : List UInt8} {o k : Nat}

/-- The attributes before an attribute, it, and those after it. -/
theorem attrs_eq_of_offset (ho : nlaFraming.Offset xs o)
    (hs : nlaFraming.size (xs.drop o) = some k) :
    attrs xs = attrs (xs.take o) ++
      Attr.ofBytes ((xs.drop o).take k) :: attrs (xs.drop (o + roundUp4 k)) := by
  rw [attrs, ho.split_eq hs, List.map_append, List.map_cons]
  rfl

/-- The nest with another payload of the same length in the attribute. -/
theorem attrs_overwrite (ho : nlaFraming.Offset xs o)
    (hs : nlaFraming.size (xs.drop o) = some k) {q : List UInt8} (hq : 4 + q.length = k) :
    attrs (overwrite xs (o + 4) q) = attrs (xs.take o) ++
      { Attr.ofBytes ((xs.drop o).take k) with payload := q } ::
        attrs (xs.drop (o + roundUp4 k)) := by
  have hlen : ((xs.drop o).take k).length = k :=
    List.length_take_of_le (nlaFraming_size_eq_some.1 hs).2.2.1
  rw [attrs, ho.split_overwrite hs (Nat.le_of_eq hq) (nlaFraming_size_overwrite hs hq),
    List.map_append, List.map_cons, Attr.ofBytes_overwrite (hq.trans hlen.symm)]
  rfl

end Nest

/-- An attribute of another type does not decide. -/
theorem lastAttr_replace {type : UInt16} {a : Attr} (hne : a.type ≠ type) (min : Nat)
    (q : List UInt8) (as bs : List Attr) :
    lastAttr type min (as ++ { a with payload := q } :: bs) =
      lastAttr type min (as ++ a :: bs) := by
  have hsplit : ∀ a : Attr, a :: bs = [a] ++ bs := fun _ => rfl
  -- Neither payload is one of the type.
  rw [hsplit, hsplit a]
  simp only [lastAttr_append, lastAttr_single, hne, false_and, if_false]

/-! ## Messages -/

section Message

variable {xs q : List UInt8} {i : Nat}

/-- What is written behind the header of a message leaves the header. -/
theorem nlmsgLen_overwrite (hi : 16 ≤ i) (hlen : i ≤ xs.length) :
    nlmsgLen (overwrite xs i q) = nlmsgLen xs := by
  rw [← nlmsgLen_take le_rfl, take_overwrite_of_le hi hlen, nlmsgLen_take le_rfl]

theorem nlmsgType_overwrite (hi : 16 ≤ i) (hlen : i ≤ xs.length) :
    nlmsgType (overwrite xs i q) = nlmsgType xs := by
  rw [← nlmsgType_take le_rfl, take_overwrite_of_le hi hlen, nlmsgType_take le_rfl]

theorem nlmsgFlags_overwrite (hi : 16 ≤ i) (hlen : i ≤ xs.length) :
    nlmsgFlags (overwrite xs i q) = nlmsgFlags xs := by
  rw [← nlmsgFlags_take le_rfl, take_overwrite_of_le hi hlen, nlmsgFlags_take le_rfl]

theorem msgFraming_size_overwrite {n : Nat} (hs : msgFraming.size xs = some n) (hi : 16 ≤ i)
    (hend : i + q.length ≤ n) : msgFraming.size (overwrite xs i q) = some n := by
  rcases msgFraming_size_eq_some.1 hs with ⟨hheader, hmin, hmax, hlen⟩
  have hsame := nlmsgLen_overwrite (q := q) hi (by omega : i ≤ xs.length)
  refine msgFraming_size_eq_some.2 ⟨?_, hmin, ?_, hsame.symm ▸ hlen⟩
  · rw [length_overwrite (by omega)]
    exact hheader
  · rw [length_overwrite (by omega)]
    exact hmax

section Buffer

variable {D : List UInt8} {off n : Nat} (hoff : msgFraming.Offset D off)
  (hs : msgFraming.size (D.drop off) = some n)

include hoff hs

/-- The messages before a message, it, and those after it. -/
theorem frames_eq_of_offset :
    frames D = frames (D.take off) ++ (D.drop off).take n :: frames (D.drop (off + roundUp4 n)) :=
  hoff.split_eq hs

theorem frames_overwrite (hi : 16 ≤ i) (hend : i + q.length ≤ n) :
    frames (overwrite D (off + i) q) = frames (D.take off) ++
      overwrite ((D.drop off).take n) i q :: frames (D.drop (off + roundUp4 n)) :=
  hoff.split_overwrite hs hend (msgFraming_size_overwrite hs hi hend)

theorem fullFrames_eq_of_offset (hfull : 20 ≤ n) :
    fullFrames D = fullFrames (D.take off) ++
      (D.drop off).take n :: fullFrames (D.drop (off + roundUp4 n)) := by
  have hlen : ((D.drop off).take n).length = n :=
    List.length_take_of_le (msgFraming_size_eq_some.1 hs).2.2.1
  rw [fullFrames, frames_eq_of_offset hoff hs, List.filter_append, List.filter_cons_of_pos]
  · rfl
  · exact decide_eq_true (by omega)

theorem fullFrames_overwrite (hfull : 20 ≤ n) (hi : 16 ≤ i) (hend : i + q.length ≤ n) :
    fullFrames (overwrite D (off + i) q) = fullFrames (D.take off) ++
      overwrite ((D.drop off).take n) i q :: fullFrames (D.drop (off + roundUp4 n)) := by
  have hlen : ((D.drop off).take n).length = n :=
    List.length_take_of_le (msgFraming_size_eq_some.1 hs).2.2.1
  have hlen' : (overwrite ((D.drop off).take n) i q).length = n := by
    rw [length_overwrite (by omega), hlen]
  rw [fullFrames, frames_overwrite hoff hs hi hend, List.filter_append, List.filter_cons_of_pos]
  · rfl
  · exact decide_eq_true (by omega)

/-- The messages have the lengths that they had. -/
theorem forall_length_frames_overwrite (hi : 16 ≤ i) (hend : i + q.length ≤ n)
    (P : Nat → Prop) :
    (∀ f ∈ frames (overwrite D (off + i) q), P f.length) ↔ ∀ f ∈ frames D, P f.length := by
  have hlen : ((D.drop off).take n).length = n :=
    List.length_take_of_le (msgFraming_size_eq_some.1 hs).2.2.1
  rw [frames_overwrite hoff hs hi hend, frames_eq_of_offset hoff hs]
  simp only [List.forall_mem_append, List.forall_mem_cons,
    length_overwrite (by omega : i + q.length ≤ ((D.drop off).take n).length)]

end Buffer

end Message
end Netdiag
