import FlowCanvas.Text.Columns
import Mathlib.Algebra.GroupWithZero.Nat

/-!
# The width of words with spaces between them

Characters that stand side by side can be drawn in less room than each by itself, or in more.  A
space takes part in none of this: whatever stands around it, it takes a column, and what is on its
left does not see what is on its right.  So two texts with a space between them are as wide as the
two and the space.

For this to hold of widths, which are natural numbers, the width that a scanner has counted must not
be negative.  Some characters are counted with a column too many until the next one is read, which
takes the column back.  The columns that may still be taken back (`Follower.spare`) are always among
those counted (`spare_scanWidth_le`).

## Main definitions

* `Follower.spare` — the columns that the next character may take back.

## Main results

* `scanWidth_nonneg` — **no text has a negative width.**
* `columns_append_space` — **a space parts two texts.**
* `columns_intercalate_space` — words in a line take their columns and one each for the space behind
  them, except the last.
-/

namespace FlowCanvas

open WidthTable

/-! ### Columns that are taken back -/

/-- The columns that the next character on the left may take back. -/
def Follower.spare : Follower → Int
  | .coengLetter | .joinedConsonant | .joinedFlag | .joinedFlags true => 1
  | _ => 0

namespace Follower

variable {f g : Follower}

@[simp] theorem follower_ahead (f : Follower) : f.ahead.follower = f := rfl

theorem spare_nonneg (f : Follower) : 0 ≤ f.spare := by
  unfold spare
  split <;> decide

theorem spare_behindJoiner (f : Follower) : f.behindJoiner.spare = f.spare := by
  cases f <;> rfl

/-- A character by itself has the columns that may be taken back of it. -/
theorem spare_lookup_le (c : Char) : (lookup c).2.spare ≤ (lookup c).1 := by
  have hite : ∀ {p : Prop} [Decidable p] {r r' : Nat × Follower}, r.2.spare ≤ r.1 →
      r'.2.spare ≤ r'.1 → (if p then r else r').2.spare ≤ (if p then r else r').1 :=
    fun h h' => iteInduction (motive := fun r : Nat × Follower => r.2.spare ≤ r.1) (fun _ => h)
      fun _ => h'
  unfold lookup
  refine hite (by decide) (hite ?wide ?_)
  case wide =>
    exact iteInduction (motive := fun f : Follower => f.spare ≤ 2) (fun _ => by decide) fun _ =>
      iteInduction (motive := fun f : Follower => f.spare ≤ 2) (fun _ => by decide) fun _ =>
        by decide
  iterate 11 refine hite (by decide) ?_
  decide

/-- A character that belongs to one sequence with its follower, or does not, takes back no more than
it may. -/
def TakesBack (f : Follower) (o : Option (Int × Follower)) : Prop :=
  ∀ r ∈ o, r.2.spare ≤ f.spare + r.1

theorem takesBack_none : f.TakesBack none := fun _ h => absurd h (Option.not_mem_none _)

theorem takesBack_some {n : Int} (h : g.spare ≤ f.spare + n) : f.TakesBack (some (n, g)) :=
  fun _ hr => Option.some.inj hr ▸ h

theorem takesBack_ite {p : Prop} [Decidable p] {o o' : Option (Int × Follower)}
    (h : f.TakesBack o) (h' : f.TakesBack o') : f.TakesBack (if p then o else o') :=
  iteInduction (fun _ => h) fun _ => h'

/-- By the follower, and then by the choices that are open to the character. -/
theorem takesBack_combine (f : Follower) (c : Char) : f.TakesBack (f.combine c) := by
  cases f with
  | joinedFlags odd =>
    -- Of two letters that make a flag, the second one takes back a column that the first one has.
    cases odd <;>
      exact takesBack_ite (takesBack_some (by decide))
        (takesBack_ite (takesBack_some (by decide)) takesBack_none)
  | lamed zwj | ya zwj | orkhonI zwj =>
    cases zwj
    · exact takesBack_none
    · exact takesBack_ite (takesBack_some (by decide)) takesBack_none
  | _ =>
    repeat' apply takesBack_ite
    all_goals first | exact takesBack_none | exact takesBack_some (by simp [spare])

theorem spare_step_le (f : Follower) (c : Char) :
    (f.step c).2.follower.spare ≤ f.spare + (f.step c).1 := by
  unfold step
  split
  · rw [follower_ahead, spare_behindJoiner]
    omega
  split
  · rw [follower_ahead]
    omega
  split
  · next n g hcombine => exact takesBack_combine f c (n, g) hcombine
  · have hlookup := spare_lookup_le c
    have hspare := f.spare_nonneg
    rw [follower_ahead]
    dsimp only
    omega

end Follower

namespace Ahead

variable (a : Ahead) (c : Char)

theorem spare_behind_le (s : Selector) : (a.behind s).follower.spare ≤ a.follower.spare := by
  unfold behind
  split
  · exact Int.le_refl _
  split
  · exact Int.le_refl _
  · exact a.follower.spare_nonneg

theorem spare_voidEmoji_le : a.voidEmoji.follower.spare ≤ a.follower.spare := by
  unfold voidEmoji
  split
  · dsimp only
    split
    · exact a.follower.spare_nonneg
    · exact Int.le_refl _
  · exact Int.le_refl _

theorem spare_stepPlain_le :
    (a.stepPlain c).2.follower.spare ≤ a.follower.spare + (a.stepPlain c).1 := by
  have hspare := a.follower.spare_nonneg
  have hplain : ∀ n : Int, 0 ≤ n → Follower.plain.spare ≤ a.follower.spare + n := fun n hn =>
    Int.add_nonneg hspare hn
  unfold stepPlain
  split
  · split
    · exact hplain 1 (by decide)
    split
    · exact hplain 0 (by decide)
    · exact hplain 1 (by decide)
  split
  · next s _ =>
    have := a.spare_behind_le s
    dsimp only
    omega
  split
  · exact hplain 1 (by decide)
  split
  · exact hplain 2 (by decide)
  · exact a.follower.spare_step_le c

theorem spare_step_le : (a.step c).2.follower.spare ≤ a.follower.spare + (a.step c).1 := by
  unfold step
  split
  · have hspare := a.follower.spare_nonneg
    have hemoji : Follower.emoji.spare = 0 := rfl
    rw [Follower.follower_ahead, hemoji]
    dsimp only
    split <;> omega
  · have hvoid := a.spare_voidEmoji_le
    have hstep := a.voidEmoji.spare_stepPlain_le c
    omega

/-- A space takes a column, whatever stands to the right, and hides it. -/
theorem step_space : a.step ' ' = (1, nothing) := by
  have hbase : emojiVariationBase.has ' '.toNat = false := by decide +kernel
  have hlatin : ' ' ≤ '\u00a0' := by decide
  unfold step
  rw [hbase, Bool.and_false, if_neg Bool.false_ne_true]
  unfold stepPlain
  rw [if_pos hlatin, if_neg (by decide), if_neg (by simp)]

end Ahead

/-! ### Texts -/

theorem spare_scanWidth_le (cs : List Char) :
    (scanWidth cs).2.follower.spare ≤ (scanWidth cs).1 := by
  induction cs with
  | nil => decide
  | cons c cs ih =>
    have hstep := (scanWidth cs).2.spare_step_le c
    rw [scanWidth_cons]
    dsimp only
    omega

/-- **No text has a negative width.** -/
theorem scanWidth_nonneg (cs : List Char) : 0 ≤ (scanWidth cs).1 :=
  Int.le_trans (scanWidth cs).2.follower.spare_nonneg (spare_scanWidth_le cs)

/-- What stands on the left of a space is scanned as if nothing stood on its right. -/
theorem scanWidth_append_space (l r : List Char) :
    scanWidth (l ++ ' ' :: r)
      = ((scanWidth l).1 + 1 + (scanWidth r).1, (scanWidth l).2) := by
  induction l with
  | nil =>
    rw [List.nil_append, scanWidth_cons, Ahead.step_space, scanWidth_nil, Int.zero_add,
      Int.add_comm]
  | cons c l ih =>
    rw [List.cons_append, scanWidth_cons, scanWidth_cons, ih]
    dsimp only
    congr 1
    omega

/-- **A space parts two texts:** they are as wide as each by itself, and the space. -/
theorem columns_append_space (l r : List Char) :
    columns (l ++ ' ' :: r) = columns l + 1 + columns r := by
  have hl := scanWidth_nonneg l
  have hr := scanWidth_nonneg r
  unfold columns
  rw [scanWidth_append_space]
  dsimp only
  omega

/-- With the space behind each word, the last one included, words in a line take one column more
than the line. -/
theorem columns_intercalate_space {ws : List (List Char)} (h : ws ≠ []) :
    columns ([' '].intercalate ws) + 1 = (ws.map fun w => columns w + 1).sum := by
  induction ws with
  | nil => exact absurd rfl h
  | cons w ws ih =>
    by_cases hws : ws = []
    · rw [hws, List.intercalate_singleton, List.map_singleton, List.sum_singleton]
    · rw [List.intercalate_cons_of_ne_nil hws, List.append_assoc, List.singleton_append,
        columns_append_space, List.map_cons, List.sum_cons, ← ih hws]
      omega

end FlowCanvas
