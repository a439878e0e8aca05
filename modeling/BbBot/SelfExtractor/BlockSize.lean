/-
# The block size

The first payload is read with the device's own `dd`, which only skips and counts
whole blocks. `mkSEE.sh` tries the lengths that up to twenty further bytes give the
script, and pads it to the first one with the largest greatest common divisor, so
that both divisions by the block size are exact.

The Euclidean loop compares words with `0`. The size of a payload arrives padded,
and a padded zero is another word: for an empty payload `expr` is asked to divide
by zero, prints nothing, and the loop goes on with the empty word for ever.
-/

import BbBot.SelfExtractor.MkSee
import Mathlib.Data.Nat.GCD.Basic
import Mathlib.Order.Bounds.Basic

namespace BbBot.SelfExtractor

open BbBot.Unix

/-! ## Padded decimals -/

theorem padZero_eq (word : Str) :
    padZero word = List.replicate (8 - word.length) '0' ++ word := by
  fun_induction padZero word with
  -- Shorter than a placeholder: the recursion puts one more zero in front.
  | case1 word short ih =>
    rw [ih, List.length_cons, List.append_cons, ← List.replicate_succ']
    congr 2
    omega
  | case2 word long =>
    have none : 8 - word.length = 0 := by omega
    rw [none, List.replicate_zero, List.nil_append]

@[simp] theorem readDecimal_padZero (n : ℕ) : readDecimal (padZero (decimal n)) = some n := by
  rw [padZero_eq, readDecimal_zeros_append]

/-- A number below `10 ^ 8` fills its placeholder exactly. -/
theorem length_padZero {n : ℕ} (small : n < 10 ^ 8) : (padZero (decimal n)).length = 8 := by
  have width : (decimal n).length ≤ 8 :=
    (Nat.length_toDigits_le_iff (by decide) (by decide)).mpr small
  rw [padZero_eq, List.length_append, List.length_replicate]
  omega

theorem newline_notMem_padZero (n : ℕ) : '\n' ∉ padZero (decimal n) := by
  rw [padZero_eq, List.mem_append, not_or]
  refine ⟨fun zero => absurd (List.eq_of_mem_replicate zero) (by decide), fun digit => ?_⟩
  have isDigit := List.all_eq_true.mp (decimal_all_isDigit n) _ digit
  exact absurd isDigit (by decide)

/-! ## The Euclidean loop -/

/-- A word spells a number, and zero only in the spelling the loop tests for. -/
def Spells (word : Str) (n : ℕ) : Prop := readDecimal word = some n ∧ (n = 0 → word = ['0'])

theorem spells_decimal (n : ℕ) : Spells (decimal n) n :=
  ⟨readDecimal_decimal n, fun zero => zero ▸ decimal_zero⟩

theorem spells_padZero {n : ℕ} (positive : 0 < n) : Spells (padZero (decimal n)) n :=
  ⟨readDecimal_padZero n, fun zero => absurd zero positive.ne'⟩

theorem Spells.eq_zero {word : Str} {n : ℕ} (spells : Spells word n) (zero : word = ['0']) :
    n = 0 := by
  have read := spells.1
  rw [zero, ← decimal_zero, readDecimal_decimal] at read
  exact (Option.some.inj read).symm

/-- More rounds than the second operand are enough for the loop to end, and it
ends with the padded greatest common divisor. -/
theorem gcd_ends {rounds m n : ℕ} {a b : Str} (ha : Spells a m) (hb : Spells b n)
    (enough : n < rounds) : gcd_ rounds a b = some (padZero (decimal (Nat.gcd m n))) := by
  induction rounds generalizing a b m n with
  | zero => omega
  | succ rounds ih =>
    rw [gcd_]
    split_ifs with zero
    · rw [expr_add ha.1 hb.1]
      -- One operand is zero, so the sum that is printed is the other one.
      rcases zero with zero | zero
      · rw [ha.eq_zero zero, Nat.gcd_zero_left, Nat.zero_add]
      · rw [hb.eq_zero zero, Nat.gcd_zero_right, Nat.add_zero]
    · have nonzero : n ≠ 0 := fun h => zero (Or.inr (hb.2 h))
      -- The remainder is the next second operand, and decreases.
      have smaller : m % n < n := Nat.mod_lt m (Nat.pos_of_ne_zero nonzero)
      rw [expr_rem ha.1 hb.1 nonzero, ih hb (spells_decimal _) (by omega), Nat.gcd_comm n,
        ← Nat.gcd_rec, Nat.gcd_comm]

/-- Operands the loop never gets away from: neither is spelled `0`, and the second
one is no divisor. -/
structure Stuck (a b : Str) : Prop where
  first : a ≠ ['0']
  second : b ≠ ['0']
  noDivisor : ∀ n, readDecimal b = some n → n = 0

/-- The remainder is the empty word then, which is no divisor either. -/
theorem Stuck.step {a b : Str} (stuck : Stuck a b) : Stuck b (expr .rem a b) := by
  rw [expr_rem_eq_nil stuck.noDivisor]
  refine ⟨stuck.second, by simp, ?_⟩
  intro n reads
  exact absurd reads (by simp [readDecimal])

theorem Stuck.never_ends {a b : Str} (stuck : Stuck a b) (rounds : ℕ) :
    gcd_ rounds a b = none := by
  induction rounds generalizing a b with
  | zero => rfl
  | succ rounds ih =>
    rw [gcd_, if_neg (not_or.mpr ⟨stuck.first, stuck.second⟩)]
    exact ih stuck.step

theorem stuck_zero {m : ℕ} (positive : 0 < m) : Stuck (decimal m) (padZero (decimal 0)) := by
  constructor
  · intro zero
    exact absurd ((spells_decimal m).eq_zero zero) positive.ne'
  · -- The word that is tested for is shorter than a padded one.
    intro zero
    have width := length_padZero (show 0 < 10 ^ 8 by decide)
    rw [zero] at width
    exact absurd width (by decide)
  · intro n reads
    rw [readDecimal_padZero] at reads
    exact (Option.some.inj reads).symm

/-- For all sizes, the loop ends with the padded greatest common divisor exactly when
the script is empty or the payload is not. -/
theorem gcd_ends_iff (m n : ℕ) :
    (∃ rounds, gcd_ rounds (decimal m) (padZero (decimal n)) =
      some (padZero (decimal (Nat.gcd m n)))) ↔ m = 0 ∨ 0 < n := by
  constructor
  · rintro ⟨rounds, ends⟩
    by_contra neither
    -- A script that is not empty and a payload that is: the loop is stuck at once.
    obtain ⟨notZero, isZero⟩ := not_or.mp neither
    obtain rfl : n = 0 := Nat.eq_zero_of_not_pos isZero
    rw [(stuck_zero (Nat.pos_of_ne_zero notZero)).never_ends] at ends
    exact absurd ends (by simp)
  · rintro (rfl | positive)
    -- An empty script is spelled `0`, which ends the loop in its first round.
    · refine ⟨1, ?_⟩
      rw [gcd_, if_pos (Or.inl decimal_zero),
        expr_add (readDecimal_decimal 0) (readDecimal_padZero n), Nat.zero_add,
        Nat.gcd_zero_left]
    · exact ⟨n + 1, gcd_ends (spells_decimal m) (spells_padZero positive) (Nat.lt_succ_self n)⟩

/-- The loop hangs on the template of the repository and an empty payload. -/
theorem gcd_hangs_empty :
    (∀ rounds, gcd_ rounds (decimal 15720) (padZero (decimal 0)) = none) ∧
      ¬ ∃ rounds, gcd_ rounds (decimal 15720) (padZero (decimal 0)) =
        some (padZero (decimal (Nat.gcd 15720 0))) := by
  have hangs (rounds : ℕ) : gcd_ rounds (decimal 15720) (padZero (decimal 0)) = none :=
    (stuck_zero (by decide)).never_ends rounds
  refine ⟨hangs, ?_⟩
  rintro ⟨rounds, ends⟩
  rw [hangs] at ends
  exact absurd ends (by simp)

/-! ## The block-size search -/

/-- Keep the first index whose value beats everything before it. -/
def improve (f : ℕ → ℕ) (best : ℕ × ℕ) (i : ℕ) : ℕ × ℕ := if best.1 < f i then (f i, i) else best

/-- A strict search from `(1, 0)` over positive values ends at the first maximum. -/
theorem foldl_improve (f : ℕ → ℕ) (positive : 0 < f 0) (last : ℕ) :
    let found := (List.range (last + 1)).foldl (improve f) (1, 0)
    found.1 = f found.2 ∧ found.2 ≤ last ∧ (∀ i ≤ last, f i ≤ found.1) ∧
      ∀ i < found.2, f i < found.1 := by
  induction last with
  | zero =>
    by_cases larger : 1 < f 0
    · simp [improve, larger]
    · have one : f 0 = 1 := by omega
      simp [improve, one]
  -- The last index replaces what was found exactly when it beats it.
  | succ last ih =>
    obtain ⟨attained, bounded, maximal, first⟩ := ih
    rw [List.range_succ, List.foldl_append, List.foldl_cons, List.foldl_nil]
    generalize (List.range (last + 1)).foldl (improve f) (1, 0) = found at *
    by_cases larger : found.1 < f (last + 1)
    · simp only [improve, if_pos larger, le_refl, true_and]
      refine ⟨fun i within => ?_, fun i earlier => ?_⟩
      · rcases Nat.le_succ_iff.mp within with within | rfl
        · exact (maximal i within).trans larger.le
        · exact le_rfl
      · exact (maximal i (by omega)).trans_lt larger
    · simp only [improve, if_neg larger]
      refine ⟨attained, by omega, fun i within => ?_, first⟩
      rcases Nat.le_succ_iff.mp within with within | rfl
      · exact maximal i within
      · exact not_lt.mp larger

/-- The search over words follows the search over numbers. -/
theorem foldlM_searchStep (size : ℕ) {rounds n : ℕ} (positive : 0 < n) (enough : n < rounds)
    (paddings : List ℕ) (best : ℕ × ℕ) :
    paddings.foldlM (searchStep rounds size (padZero (decimal n)))
        ⟨padZero (decimal best.1), best.2⟩ =
      let found := paddings.foldl (improve fun i => Nat.gcd (size + i) n) best
      some ⟨padZero (decimal found.1), found.2⟩ := by
  induction paddings generalizing best with
  | nil => rfl
  | cons i paddings ih =>
    have current : searchStep rounds size (padZero (decimal n))
        ⟨padZero (decimal best.1), best.2⟩ i =
          some ⟨padZero (decimal (improve (fun i => Nat.gcd (size + i) n) best i).1),
            (improve (fun i => Nat.gcd (size + i) n) best i).2⟩ := by
      rw [searchStep, expr_add (readDecimal_decimal size) (readDecimal_decimal i),
        gcd_ends (spells_decimal _) (spells_padZero positive) enough, Option.map_some]
      -- `-gt` compares the padded words as numbers.
      by_cases larger : best.1 < Nat.gcd (size + i) n
      · rw [if_pos ((greater_iff (readDecimal_padZero _) (readDecimal_padZero _)).mpr larger),
          improve, if_pos larger]
      · rw [if_neg fun found => larger
            ((greater_iff (readDecimal_padZero _) (readDecimal_padZero _)).mp found),
          improve, if_neg larger]
    rw [List.foldlM_cons, current]
    exact ih _

/-- The search ends at the first padding that attains the largest block size, and
that block size is the greatest common divisor for this padding. -/
theorem search_eq (size : ℕ) {rounds n : ℕ} (positive : 0 < n) (enough : n < rounds) :
    ∃ padding ≤ 20,
      (∀ i ≤ 20, Nat.gcd (size + i) n ≤ Nat.gcd (size + padding) n) ∧
      (∀ i < padding, Nat.gcd (size + i) n < Nat.gcd (size + padding) n) ∧
      search rounds size (padZero (decimal n)) =
        some ⟨padZero (decimal (Nat.gcd (size + padding) n)), padding⟩ := by
  -- The search starts from the literal `00000001`.
  have start : Search.start = ⟨padZero (decimal 1), 0⟩ := by
    rw [padZero_eq]
    rfl
  have followed := foldlM_searchStep size positive enough (List.range 21) (1, 0)
  obtain ⟨attained, bounded, maximal, first⟩ := foldl_improve
    (fun i => Nat.gcd (size + i) n) (Nat.gcd_pos_of_pos_right _ positive) 20
  refine ⟨_, bounded, attained ▸ maximal, attained ▸ first, ?_⟩
  rw [search, start, followed, ← attained]

/-! ## The settings -/

/-- The settings as numbers: sizes and offsets for the three payloads. -/
structure Layout where
  countDD : ℕ
  count7z : ℕ
  countBB : ℕ
  block : ℕ
  skipDD : ℕ
  skip7z : ℕ
  skipBB : ℕ

/-- The settings as they are written. -/
def Layout.fields (layout : Layout) : Fields where
  byteCountDD := padZero (decimal layout.countDD)
  byteCount7z := padZero (decimal layout.count7z)
  byteCountBB := padZero (decimal layout.countBB)
  blockSize := padZero (decimal layout.block)
  bytesToSkipDD := padZero (decimal layout.skipDD)
  bytesToSkip7z := padZero (decimal layout.skip7z)
  bytesToSkipBB := padZero (decimal layout.skipBB)

/-- The settings computed for a padded script of the given size. -/
def layoutFor (size block dd sevenZip bbx : ℕ) : Layout where
  countDD := dd / block
  count7z := sevenZip
  countBB := bbx
  block := block
  skipDD := size / block
  skip7z := size + dd
  skipBB := size + dd + sevenZip

/-- Dividing by the block size only when it exceeds one divides by it always. -/
theorem fieldsFor_eq {size block dd sevenZip bbx : ℕ} (positive : 0 < block) :
    fieldsFor size (padZero (decimal block)) (padZero (decimal dd))
        (padZero (decimal sevenZip)) (padZero (decimal bbx)) =
      (layoutFor size block dd sevenZip bbx).fields := by
  have one : readDecimal ['1'] = some 1 := by decide
  simp only [fieldsFor, expr_add (readDecimal_padZero _) (readDecimal_padZero _), Fields.adjust]
  -- A block size of one leaves both settings as they are, and divides both.
  by_cases larger : 1 < block
  · rw [if_pos ((greater_iff (readDecimal_padZero _) one).mpr larger)]
    simp only [expr_div (readDecimal_padZero _) (readDecimal_padZero _) positive.ne',
      Layout.fields, layoutFor]
  · have single : block = 1 := by omega
    rw [if_neg fun found => larger ((greater_iff (readDecimal_padZero _) one).mp found)]
    simp only [Layout.fields, layoutFor, single, Nat.div_one]

/-- Without a first payload the search never ends, and neither does the build. -/
theorem mkSee_hangs {template : Str} (nonempty : template ≠ []) (sevenZip bbx : Str)
    (rounds : ℕ) : mkSee rounds template [] sevenZip bbx = none := by
  have positive : 0 < template.length := List.length_pos_of_ne_nil nonempty
  have hangs : searchStep rounds template.length (padZero (decimal 0)) Search.start 0 = none := by
    rw [searchStep, expr_add (readDecimal_decimal _) (readDecimal_decimal 0), Nat.add_zero,
      (stuck_zero positive).never_ends, Option.map_none]
  -- The first of the padding sizes is zero, and its loop hangs.
  have paddings : List.range 21 = 0 :: List.range' 1 20 := rfl
  have searched : search rounds template.length (padZero (decimal 0)) = none := by
    rw [search, paddings, List.foldlM_cons, hangs]
    rfl
  simp [mkSee, searched]

/-- The block size is the largest that a padding allows and the padding is the first
that allows it. What is skipped and counted is a whole number of blocks, and all
three settings fill their placeholders. -/
structure Optimal (size dd block highestGCD : ℕ) (fields : Fields) : Prop where
  greatest : IsGreatest {g | ∃ i ≤ 20, g = Nat.gcd (size + i) dd} block
  least : IsLeast {i | i ≤ 20 ∧ Nat.gcd (size + i) dd = block} highestGCD
  blockSize : readDecimal fields.blockSize = some block
  bytesToSkipDD : ∃ skip, readDecimal fields.bytesToSkipDD = some skip ∧
    skip * block = size + highestGCD
  byteCountDD : ∃ count, readDecimal fields.byteCountDD = some count ∧ count * block = dd
  widths : ∀ word ∈ [fields.blockSize, fields.bytesToSkipDD, fields.byteCountDD],
    word.length = 8

/-- The settings after the search, for the script that was padded by its result. -/
def settingsFor (template dd sevenZip bbx : Str) (best : Search) : Fields :=
  fieldsFor (template ++ List.replicate best.highestGCD '#').length best.blockSize
    (padZero (decimal dd.length)) (padZero (decimal sevenZip.length))
    (padZero (decimal bbx.length))

/-- For every template and first payload of these sizes, the search ends with the best
block size and the first padding for it, exactly that many characters are appended,
and the settings count in whole blocks. -/
theorem blockSize_optimal (template dd sevenZip bbx : Str) (nonempty : 0 < dd.length)
    (small : dd.length < 10 ^ 8) (fits : template.length + 20 < 10 ^ 8) :
    ∀ rounds > dd.length, ∃ (best : Search) (block : ℕ),
      search rounds template.length (padZero (decimal dd.length)) = some best ∧
      readDecimal best.blockSize = some block ∧
      mkSee rounds template dd sevenZip bbx =
        some (sed (settingsFor template dd sevenZip bbx best).script
          (template ++ List.replicate best.highestGCD '#') ++ dd ++ sevenZip ++ bbx) ∧
      Optimal template.length dd.length block best.highestGCD
        (settingsFor template dd sevenZip bbx best) := by
  intro rounds enough
  obtain ⟨padding, within, maximal, first, found⟩ :=
    search_eq template.length nonempty enough
  have positive := Nat.gcd_pos_of_pos_right (template.length + padding) nonempty
  have dividesScript := Nat.gcd_dvd_left (template.length + padding) dd.length
  have dividesPayload := Nat.gcd_dvd_right (template.length + padding) dd.length
  -- The search stops at the first maximum, in the words of orders.
  have greatest : IsGreatest {g | ∃ i ≤ 20, g = Nat.gcd (template.length + i) dd.length}
      (Nat.gcd (template.length + padding) dd.length) := by
    constructor
    · exact ⟨padding, within, rfl⟩
    · rintro g ⟨i, tried, rfl⟩
      exact maximal i tried
  have least : IsLeast {i | i ≤ 20 ∧ Nat.gcd (template.length + i) dd.length =
      Nat.gcd (template.length + padding) dd.length} padding := by
    constructor
    · exact ⟨within, rfl⟩
    · rintro i ⟨-, attains⟩
      by_contra earlier
      exact absurd attains (first i (Nat.lt_of_not_le earlier)).ne
  -- From here on only that the block divides both sizes is used.
  generalize Nat.gcd (template.length + padding) dd.length = block at *
  have settings : settingsFor template dd sevenZip bbx ⟨padZero (decimal block), padding⟩ =
      (layoutFor (template.length + padding) block dd.length sevenZip.length
        bbx.length).fields := by
    rw [settingsFor, List.length_append, List.length_replicate, fieldsFor_eq positive]
  refine ⟨⟨padZero (decimal block), padding⟩, block, found, readDecimal_padZero block, ?_, ?_⟩
  · simp only [mkSee, found, Option.bind_eq_bind, Option.bind_some]
    rfl
  rw [settings]
  refine ⟨greatest, least, readDecimal_padZero block, ?_, ?_, ?_⟩
  · exact ⟨_, readDecimal_padZero _, Nat.div_mul_cancel dividesScript⟩
  · exact ⟨_, readDecimal_padZero _, Nat.div_mul_cancel dividesPayload⟩
  -- The block is at most the payload, and the quotients at most the sizes.
  · have blockFits := Nat.le_of_dvd nonempty dividesPayload
    have padded : template.length + padding < 10 ^ 8 := by omega
    simp only [List.mem_cons, List.not_mem_nil, or_false, forall_eq_or_imp, forall_eq]
    refine ⟨length_padZero ?_, length_padZero ?_, length_padZero ?_⟩
    · exact Nat.lt_of_le_of_lt blockFits small
    · exact Nat.lt_of_le_of_lt (Nat.div_le_self _ _) padded
    · exact Nat.lt_of_le_of_lt (Nat.div_le_self _ _) small

theorem blockSize_optimal_six : ∃ (best : Search) (block : ℕ),
    search 7 4 (padZero (decimal 6)) = some best ∧ readDecimal best.blockSize = some block ∧
      mkSee 7 "exit".toList "dd.yds".toList [] [] =
        some (sed (settingsFor "exit".toList "dd.yds".toList [] [] best).script
          ("exit".toList ++ List.replicate best.highestGCD '#') ++ "dd.yds".toList ++ [] ++ []) ∧
      Optimal 4 6 block best.highestGCD
        (settingsFor "exit".toList "dd.yds".toList [] [] best) :=
  blockSize_optimal "exit".toList "dd.yds".toList [] [] (by decide) (by decide) (by decide) 7
    (by decide)

end BbBot.SelfExtractor
