/-!
Places in a text counted in bytes of its UTF-8 form: cutting a piece out between two byte offsets,
and the line and column at which an offset lies. A cut that does not fall between two characters has
no result.
-/

namespace PythonToCSharp.Text

/-- The number of bytes of the UTF-8 form. -/
def byteLength : List Char → Nat
  | [] => 0
  | c :: cs => c.utf8Size + byteLength cs

def dropBytes : Nat → List Char → Option (List Char)
  | n, [] => if n = 0 then some [] else none
  | n, c :: cs =>
    if n = 0 then some (c :: cs)
    else if c.utf8Size ≤ n then dropBytes (n - c.utf8Size) cs
    else none

def takeBytes : Nat → List Char → Option (List Char)
  | n, [] => if n = 0 then some [] else none
  | n, c :: cs =>
    if n = 0 then some []
    else if c.utf8Size ≤ n then (takeBytes (n - c.utf8Size) cs).map (c :: ·)
    else none

/-- The characters from byte `start` up to byte `stop`. -/
def slice? (cs : List Char) (start stop : Nat) : Option (List Char) :=
  if start ≤ stop then (dropBytes start cs).bind (takeBytes (stop - start)) else none

/-- The characters from byte `start` up to byte `stop`, and nothing where there is no such piece. -/
def slice (cs : List Char) (start stop : Nat) : List Char :=
  (slice? cs start stop).getD []

theorem byteLength_append (xs ys : List Char) :
    byteLength (xs ++ ys) = byteLength xs + byteLength ys := by
  induction xs with
  | nil => simp [byteLength]
  | cons c xs ih => simp [byteLength, ih, Nat.add_assoc]

theorem utf8Size_ne_zero (c : Char) : c.utf8Size ≠ 0 :=
  Nat.ne_of_gt c.utf8Size_pos

theorem dropBytes_byteLength_append (xs ys : List Char) :
    dropBytes (byteLength xs) (xs ++ ys) = some ys := by
  induction xs with
  | nil => cases ys <;> simp [byteLength, dropBytes]
  | cons c xs ih =>
    have hc := utf8Size_ne_zero c
    simp only [List.cons_append, dropBytes, byteLength]
    rw [if_neg (by omega), if_pos (by omega), Nat.add_sub_cancel_left, ih]

theorem takeBytes_byteLength_append (xs ys : List Char) :
    takeBytes (byteLength xs) (xs ++ ys) = some xs := by
  induction xs with
  | nil => cases ys <;> simp [byteLength, takeBytes]
  | cons c xs ih =>
    have hc := utf8Size_ne_zero c
    simp only [List.cons_append, takeBytes, byteLength]
    rw [if_neg (by omega), if_pos (by omega), Nat.add_sub_cancel_left, ih]
    rfl

/-- Cutting the middle out of three adjacent pieces gives the middle. -/
theorem slice_append_append (xs ys zs : List Char) :
    slice (xs ++ ys ++ zs) (byteLength xs) (byteLength xs + byteLength ys) = ys := by
  simp only [slice, slice?, List.append_assoc]
  rw [if_pos (Nat.le_add_right _ _), dropBytes_byteLength_append, Nat.add_sub_cancel_left]
  simp [takeBytes_byteLength_append]

end PythonToCSharp.Text
