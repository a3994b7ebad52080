/-!
Sets of characters and maps between characters, kept as arithmetic progressions of code points.
-/

namespace GoOpenApi.Text

/-- A row `(lo, hi, step)` stands for `lo, lo + step, …` up to `hi`. -/
def CharTable.holds (rows : List (Nat × Nat × Nat)) (n : Nat) : Bool :=
  rows.any fun (lo, hi, step) ↦ lo ≤ n && n ≤ hi && (n - lo) % step == 0

/-- A row `(lo, hi, step, image)` moves its progression onto the one that starts at `image`. -/
def CharTable.shifted (rows : List (Nat × Nat × Nat × Nat)) (n : Nat) : Nat :=
  match rows.find? fun (lo, hi, step, _) ↦ lo ≤ n && n ≤ hi && (n - lo) % step == 0 with
  | some (lo, _, _, image) => image + (n - lo)
  | none => n

theorem CharTable.holds_nil (n : Nat) : CharTable.holds [] n = false := rfl

theorem CharTable.shifted_nil (n : Nat) : CharTable.shifted [] n = n := rfl

end GoOpenApi.Text
