/-
# Lines, words and anchored substitutions

Tools that work line by line see a file as the pieces between its newlines. An
unquoted expansion is cut at blanks into words, so the output of a command that
prints one name a line gives these names back only when no name holds a blank.

The stream editor rewrites every line that starts with a given name into one
setting. When no name starts another one, each line is rewritten by at most one
command, so the commands of a script do not interfere, and an edit whose
replacements are as long as the lines they replace moves no byte behind them.
-/

import BbBot.Unix.Decimal
import Mathlib.Data.List.Infix
import Mathlib.Data.List.Pairwise

namespace BbBot.Unix

/-- Whether a word is one of several, as `case` decides it. -/
instance decidableMemWords (word : Str) (words : List Str) : Decidable (word ∈ words) :=
  inferInstance

/-- The pieces between the newlines of a text. The piece after the last newline
is the line that is not terminated yet, empty for a complete text. -/
def lines (text : Str) : List Str := text.splitOn '\n'

/-- Put the newlines back between the pieces. -/
def unlines (pieces : List Str) : Str := ['\n'].intercalate pieces

@[simp] theorem unlines_lines (text : Str) : unlines (lines text) = text :=
  List.intercalate_splitOn '\n'

theorem lines_append_newline (first rest : Str) :
    lines (first ++ '\n' :: rest) = lines first ++ lines rest :=
  List.splitOn_append_cons_self first rest

theorem lines_of_notMem {text : Str} (single : '\n' ∉ text) : lines text = [text] :=
  List.splitOn_eq_singleton single

theorem newline_notMem_of_mem_lines {text line : Str} (member : line ∈ lines text) :
    '\n' ∉ line := by
  induction text generalizing line with
  | nil =>
    rw [lines, List.splitOn_nil, List.mem_singleton] at member
    simp [member]
  | cons c text ih =>
    rw [lines, List.splitOn_cons_eq_if_modifyHead] at member
    split at member
    · rcases List.mem_cons.mp member with rfl | later
      · simp
      · exact ih later
    · rename_i other
      -- The first character joins the first piece; the other pieces are kept.
      cases pieces : text.splitOn '\n' with
      | nil => simp [pieces] at member
      | cons first rest =>
        rw [pieces, List.modifyHead_cons, List.mem_cons] at member
        rcases member with rfl | later
        · have single : '\n' ∉ first := ih (by simp [lines, pieces])
          simpa [single] using fun same : '\n' = c => other (beq_iff_eq.mpr same.symm)
        · exact ih (by simp [lines, pieces, later])

theorem lines_unlines {pieces : List Str} (nonempty : pieces ≠ [])
    (single : ∀ piece ∈ pieces, '\n' ∉ piece) : lines (unlines pieces) = pieces :=
  List.splitOn_intercalate '\n' single nonempty

theorem unlines_append (pieces : List Str) (last : Str) (nonempty : pieces ≠ []) :
    unlines (pieces ++ [last]) = unlines pieces ++ '\n' :: last := by
  induction pieces with
  | nil => exact absurd rfl nonempty
  | cons piece pieces ih =>
    cases pieces with
    | nil => simp [unlines, List.intercalate]
    | cons next pieces =>
      have tail := ih (by simp)
      simp only [unlines, List.intercalate, List.cons_append, List.intersperse_cons_cons,
        List.flatten_cons, List.append_assoc] at tail ⊢
      rw [tail]

/-- Pieces of equal lengths give texts of equal lengths. -/
theorem length_unlines_map (rewrite : Str → Str) (pieces : List Str)
    (same : ∀ piece ∈ pieces, (rewrite piece).length = piece.length) :
    (unlines (pieces.map rewrite)).length = (unlines pieces).length := by
  induction pieces with
  | nil => rfl
  | cons piece pieces ih =>
    have head := same piece (by simp)
    have tail := ih fun other member => same other (by simp [member])
    cases pieces with
    | nil => simpa [unlines, List.intercalate] using head
    | cons next pieces =>
      simp only [unlines, List.intercalate, List.map_cons, List.intersperse_cons_cons,
        List.flatten_cons, List.length_append] at tail ⊢
      omega

/-! ## Output and words -/

/-- The output of a command that prints the given lines. -/
def output (printed : List Str) : Str := printed.flatMap fun line => line ++ ['\n']

/-- The lines a filter reads: an unterminated last line counts, an empty one does not. -/
def inputLines (text : Str) : List Str :=
  if (lines text).getLast? = some [] then (lines text).dropLast else lines text

/-- A filter reads the lines another command printed, each cut at its newlines. -/
theorem inputLines_output_eq_flatMap (printed : List Str) :
    inputLines (output printed) = printed.flatMap lines := by
  have whole : lines (output printed) = printed.flatMap lines ++ [[]] := by
    induction printed with
    | nil => rfl
    | cons line printed ih =>
      have split : output (line :: printed) = line ++ '\n' :: output printed := by
        simp [output]
      rw [split, lines_append_newline, ih, List.flatMap_cons, List.append_assoc]
  rw [inputLines, whole, if_pos (by simp), List.dropLast_concat]

/-- A filter reads back the lines another command printed. -/
theorem inputLines_output {printed : List Str} (single : ∀ line ∈ printed, '\n' ∉ line) :
    inputLines (output printed) = printed := by
  rw [inputLines_output_eq_flatMap,
    List.flatMap_congr fun line member => lines_of_notMem (single line member)]
  simp

/-- A text that is empty or ends with a newline. -/
def Terminated (text : Str) : Prop := text = [] ∨ text.getLast? = some '\n'

instance (text : Str) : Decidable (Terminated text) :=
  inferInstanceAs (Decidable (text = [] ∨ text.getLast? = some '\n'))

/-- A line that is added without a newline before it joins the last piece. -/
theorem lines_append_line (text : Str) {line : Str} (single : '\n' ∉ line) :
    ∃ first last, lines text = first ++ [last] ∧
      lines (text ++ line) = first ++ [last ++ line] := by
  induction text with
  | nil => exact ⟨[], [], rfl, by rw [List.nil_append, lines_of_notMem single]; rfl⟩
  | cons c text ih =>
    obtain ⟨first, last, before, after⟩ := ih
    rw [lines] at before after
    rw [lines, lines, List.cons_append, List.splitOn_cons_eq_if_modifyHead,
      List.splitOn_cons_eq_if_modifyHead, before, after]
    split
    · exact ⟨[] :: first, last, rfl, rfl⟩
    · cases first with
      | nil => exact ⟨[], c :: last, rfl, rfl⟩
      | cons piece first => exact ⟨(c :: piece) :: first, last, rfl, rfl⟩

/-- Only a text that is not terminated has a piece after its last newline. -/
theorem terminated_iff {text : Str} {first : List Str} {last : Str}
    (pieces : lines text = first ++ [last]) : Terminated text ↔ last = [] := by
  have whole := unlines_lines text
  rw [pieces] at whole
  cases first with
  | nil =>
    have same : last = text := by simpa [unlines, List.intercalate] using whole
    have member : text ∈ lines text := by simp [pieces, same]
    have single := newline_notMem_of_mem_lines member
    subst same
    constructor
    · rintro (empty | ends)
      · exact empty
      · exact absurd (List.mem_of_getLast? ends) single
    · exact Or.inl
  | cons piece first =>
    rw [unlines_append _ _ (by simp)] at whole
    rw [← whole, Terminated]
    have nonempty : unlines (piece :: first) ++ '\n' :: last ≠ [] := by simp
    constructor
    · rintro (empty | ends)
      · exact absurd empty nonempty
      · by_contra more
        have piece : last ∈ lines text := by simp [pieces]
        apply newline_notMem_of_mem_lines piece
        rw [List.getLast?_append_of_ne_nil _ (by simp), List.getLast?_cons_of_ne_nil more] at ends
        exact List.mem_of_getLast? ends
    · rintro rfl
      exact Or.inr (by simp)

/-- What a filter reads after one more line was appended. -/
theorem inputLines_append_line (text : Str) {line : Str} (single : '\n' ∉ line) :
    ∃ first last, (Terminated text ↔ last = []) ∧
      inputLines text = first ++ (if last = [] then [] else [last]) ∧
      inputLines (text ++ (line ++ ['\n'])) = first ++ [last ++ line] := by
  obtain ⟨first, last, before, after⟩ := lines_append_line text single
  refine ⟨first, last, terminated_iff before, ?_, ?_⟩
  · rw [inputLines, before]
    by_cases empty : last = []
    · simp [empty]
    · simp [empty]
  · have whole : lines (text ++ (line ++ ['\n'])) = first ++ [last ++ line] ++ [[]] := by
      rw [← List.append_assoc, lines_append_newline, after]
      rfl
    rw [inputLines, whole, if_pos (by simp), List.dropLast_concat]

theorem terminated_append_line (text line : Str) : Terminated (text ++ (line ++ ['\n'])) := by
  exact Or.inr (by simp)

/-- The byte order of texts, as `ls` sorts by it. -/
def precedes : Str → Str → Bool
  | [], _ => true
  | _ :: _, [] => false
  | x :: xs, y :: ys => if x = y then precedes xs ys else decide (x.toNat < y.toNat)

theorem toNat_ne {x y : Char} (different : x ≠ y) : x.toNat ≠ y.toNat := by
  intro same
  apply different
  apply Char.ext
  exact UInt32.toNat_inj.mp same

theorem precedes_total (first second : Str) :
    precedes first second = true ∨ precedes second first = true := by
  induction first generalizing second with
  | nil => exact Or.inl rfl
  | cons x xs ih =>
    cases second with
    | nil => exact Or.inr rfl
    | cons y ys =>
      by_cases same : x = y
      · simpa [precedes, same] using ih ys
      · have different := toNat_ne same
        simp only [precedes, if_neg same, if_neg (Ne.symm same), decide_eq_true_eq]
        omega

theorem precedes_antisymm {first second : Str} (forward : precedes first second = true)
    (backward : precedes second first = true) : first = second := by
  induction first generalizing second with
  | nil =>
    cases second with
    | nil => rfl
    | cons y ys => exact absurd backward (by simp [precedes])
  | cons x xs ih =>
    cases second with
    | nil => exact absurd forward (by simp [precedes])
    | cons y ys =>
      by_cases same : x = y
      · subst same
        simp only [precedes, if_true] at forward backward
        rw [ih forward backward]
      · simp only [precedes, if_neg same, if_neg (Ne.symm same),
          decide_eq_true_eq] at forward backward
        omega

theorem precedes_trans {first second third : Str} (left : precedes first second = true)
    (right : precedes second third = true) : precedes first third = true := by
  induction first generalizing second third with
  | nil => rfl
  | cons x xs ih =>
    cases second with
    | nil => exact absurd left (by simp [precedes])
    | cons y ys =>
      cases third with
      | nil => exact absurd right (by simp [precedes])
      | cons z zs =>
        simp only [precedes] at left right ⊢
        by_cases first : x = y
        · subst first
          by_cases last : x = z
          · subst last
            simp only [if_true] at left right ⊢
            exact ih left right
          · simpa [last] using right
        · by_cases last : y = z
          · subst last
            simpa [first] using left
          · simp only [if_neg first, if_neg last, decide_eq_true_eq] at left right
            have apart : x ≠ z := by
              intro same
              subst same
              omega
            simp only [if_neg apart, decide_eq_true_eq]
            omega

/-- `grep -v word`: the lines that do not contain the word. -/
def grepV (word text : Str) : Str :=
  output ((inputLines text).filter fun line => ¬ word <:+: line)

/-- The characters of the default `IFS`. -/
def isBlank (c : Char) : Bool := c = ' ' || c = '\t' || c = '\n'

/-- Field splitting of an unquoted expansion. -/
def fields (text : Str) : List Str := (text.splitOnP isBlank).filter (· ≠ [])

/-- A word that field splitting leaves whole. -/
def Unsplit (word : Str) : Prop := word ≠ [] ∧ ∀ c ∈ word, isBlank c = false

instance (word : Str) : Decidable (Unsplit word) :=
  decidable_of_iff (word ≠ [] ∧ word.all (fun c => !isBlank c) = true) (by simp [Unsplit])

/-- A blank separates fields. -/
theorem fields_append (front : Str) {blank : Char} (isBlank : isBlank blank = true) (back : Str) :
    fields (front ++ blank :: back) = fields front ++ fields back := by
  rw [fields, List.splitOnP_append_cons _ _ isBlank, List.filter_append, fields, fields]

/-- A word and a blank in front of a text. -/
theorem fields_cons {word : Str} (unsplit : Unsplit word) {blank : Char}
    (isBlank : isBlank blank = true) (text : Str) :
    fields (word ++ blank :: text) = word :: fields text := by
  rw [fields, List.splitOnP_append_cons_of_forall_mem unsplit.2 blank isBlank,
    List.filter_cons_of_pos (by simpa using unsplit.1), fields]

theorem fields_output {printed : List Str} (unsplit : ∀ line ∈ printed, Unsplit line) :
    fields (output printed) = printed := by
  induction printed with
  | nil => rfl
  | cons line printed ih =>
    have split : output (line :: printed) = line ++ '\n' :: output printed := by
      simp [output]
    rw [split, fields_cons (unsplit line (by simp)) (by decide),
      ih fun other member => unsplit other (by simp [member])]

theorem fields_unsplit {word : Str} (unsplit : Unsplit word) : fields word = [word] := by
  rw [fields, List.splitOnP_eq_singleton unsplit.2,
    List.filter_cons_of_pos (by simpa using unsplit.1), List.filter_nil]

/-- Newlines are blanks, so printing lines and splitting the output splits each line. -/
theorem fields_output_eq_flatMap (printed : List Str) :
    fields (output printed) = printed.flatMap fields := by
  induction printed with
  | nil => rfl
  | cons line printed ih =>
    have split : output (line :: printed) = line ++ '\n' :: output printed := by
      simp [output]
    rw [split, fields_append _ (by decide), ih, List.flatMap_cons]

theorem fields_inputLines (text : Str) : (inputLines text).flatMap fields = fields text := by
  have whole : (lines text).flatMap fields = fields text := by
    have pieces (first : Str) (rest : List Str) :
        (first :: rest).flatMap fields = fields (unlines (first :: rest)) := by
      induction rest generalizing first with
      | nil => simp [unlines, List.intercalate]
      | cons next rest ih =>
        have join : unlines (first :: next :: rest) = first ++ '\n' :: unlines (next :: rest) := by
          simp [unlines, List.intercalate]
        rw [List.flatMap_cons, ih, join, fields_append _ (by decide)]
    cases nonempty : lines text with
    | nil => exact absurd nonempty (List.splitOn_ne_nil _ _)
    | cons first rest => rw [pieces, ← nonempty, unlines_lines]
  rw [inputLines]
  split_ifs with terminated
  · have restored : (lines text).dropLast ++ [[]] = lines text := by
      have nonempty : lines text ≠ [] := List.splitOn_ne_nil _ _
      rw [List.getLast?_eq_some_getLast nonempty] at terminated
      rw [← Option.some.inj terminated, List.dropLast_append_getLast]
    rw [← whole, ← restored, List.flatMap_append]
    simp [fields]
  · exact whole

/-- Filtering lines keeps words of the input. -/
theorem mem_fields_of_mem_grepV {pattern text word : Str}
    (member : word ∈ fields (grepV pattern text)) : word ∈ fields text := by
  rw [grepV, fields_output_eq_flatMap] at member
  obtain ⟨line, kept, inside⟩ := List.mem_flatMap.mp member
  rw [← fields_inputLines]
  exact List.mem_flatMap.mpr ⟨line, (List.mem_filter.mp kept).1, inside⟩

private theorem mem_splitOnP {text word : Str} (member : word ∈ text.splitOnP isBlank) :
    ∀ c ∈ word, c ∈ text ∧ isBlank c = false := by
  induction text generalizing word with
  | nil =>
    rw [List.splitOnP_nil, List.mem_singleton] at member
    simp [member]
  | cons first text ih =>
    rw [List.splitOnP_cons_eq_if_modifyHead] at member
    split at member
    · rcases List.mem_cons.mp member with rfl | later
      · simp
      · exact fun c inside => ⟨List.mem_cons_of_mem _ (ih later c inside).1, (ih later c inside).2⟩
    · rename_i other
      cases pieces : text.splitOnP isBlank with
      | nil => simp [pieces] at member
      | cons piece rest =>
        rw [pieces, List.modifyHead_cons, List.mem_cons] at member
        intro c inside
        rcases member with rfl | later
        · rcases List.mem_cons.mp inside with rfl | inside
          · exact ⟨by simp, by simpa using other⟩
          · have old := ih (by simp [pieces]) c inside
            exact ⟨List.mem_cons_of_mem _ old.1, old.2⟩
        · have old := ih (by simp [pieces, later]) c inside
          exact ⟨List.mem_cons_of_mem _ old.1, old.2⟩

/-- Words are nonempty and hold no blank. -/
theorem unsplit_of_mem_fields {text word : Str} (member : word ∈ fields text) : Unsplit word := by
  obtain ⟨piece, nonempty⟩ := List.mem_filter.mp member
  exact ⟨by simpa using nonempty, fun c inside => (mem_splitOnP piece c inside).2⟩

/-- Splitting adds no characters. -/
theorem mem_of_mem_fields {text word : Str} (member : word ∈ fields text) {c : Char}
    (inside : c ∈ word) : c ∈ text :=
  (mem_splitOnP (List.mem_filter.mp member).1 c inside).1

/-- The first piece starts the text, and every piece stands somewhere in it. -/
private theorem splitOnP_infix (text : Str) :
    ∃ first rest, text.splitOnP isBlank = first :: rest ∧ first <+: text ∧
      ∀ piece ∈ first :: rest, piece <:+: text := by
  induction text with
  | nil => exact ⟨[], [], rfl, List.prefix_rfl, by simp⟩
  | cons c text ih =>
    obtain ⟨first, rest, pieces, starts, inside⟩ := ih
    rw [List.splitOnP_cons_eq_if_modifyHead, pieces]
    split
    · refine ⟨[], first :: rest, rfl, List.nil_prefix, ?_⟩
      intro piece member
      rcases List.mem_cons.mp member with rfl | later
      · exact List.nil_infix
      · exact (inside piece later).trans (List.suffix_cons c text).isInfix
    · have longer : c :: first <+: c :: text := List.prefix_cons_inj c |>.mpr starts
      refine ⟨c :: first, rest, rfl, longer, ?_⟩
      intro piece member
      rcases List.mem_cons.mp member with rfl | later
      · exact longer.isInfix
      · exact (inside piece (by simp [later])).trans (List.suffix_cons c text).isInfix

/-- Words stand in the text they are cut from. -/
theorem infix_of_mem_fields {text word : Str} (member : word ∈ fields text) :
    word <:+: text := by
  obtain ⟨first, rest, pieces, -, inside⟩ := splitOnP_infix text
  rw [fields, pieces] at member
  exact inside word (List.mem_filter.mp member).1

/-! ## Cutting words -/

/-- `${word#*mark}`: what follows the first mark, the whole word without one. -/
def afterFirst (mark : Char) (word : Str) : Str :=
  if mark ∈ word then (word.dropWhile (· ≠ mark)).tail else word

/-- `${word%mark*}`: what stands before the last mark, the whole word without one. -/
def beforeLast (mark : Char) (word : Str) : Str :=
  if mark ∈ word then (word.reverse.dropWhile (· ≠ mark)).tail.reverse else word

theorem afterFirst_append {mark : Char} {key : Str} (plain : mark ∉ key) (value : Str) :
    afterFirst mark (key ++ mark :: value) = value := by
  rw [afterFirst, if_pos (by simp), List.dropWhile_append_of_pos]
  · simp
  · intro c member
    have different : c ≠ mark := fun same => plain (same ▸ member)
    simpa using different

theorem afterFirst_of_notMem {mark : Char} {word : Str} (none : mark ∉ word) :
    afterFirst mark word = word := if_neg none

theorem beforeLast_of_notMem {mark : Char} {word : Str} (none : mark ∉ word) :
    beforeLast mark word = word := if_neg none

theorem beforeLast_append {mark : Char} {value : Str} (plain : mark ∉ value) (key : Str) :
    beforeLast mark (key ++ mark :: value) = key := by
  rw [beforeLast, if_pos (by simp), List.reverse_append, List.reverse_cons, List.append_assoc,
    List.dropWhile_append_of_pos]
  · simp
  · intro c member
    have different : c ≠ mark := fun same => plain (same ▸ List.mem_reverse.mp member)
    simpa using different

/-- A word with a mark is cut at its last one. -/
theorem exists_last_mark {mark : Char} {word : Str} (marked : mark ∈ word) :
    ∃ key value, word = key ++ mark :: value ∧ mark ∉ value := by
  obtain ⟨back, front, whole, plain⟩ :=
    List.eq_append_cons_of_mem (List.mem_reverse.mpr marked)
  refine ⟨front.reverse, back.reverse, ?_, by simpa using plain⟩
  rw [← List.reverse_reverse word, whole]
  simp

/-- What stands before the last mark is a key without one exactly when the word is
the key, or the key, a mark and a value without one. -/
theorem beforeLast_eq_iff {mark : Char} {key word : Str} (plain : mark ∉ key) :
    beforeLast mark word = key ↔
      word = key ∨ ∃ value, mark ∉ value ∧ word = key ++ mark :: value := by
  by_cases marked : mark ∈ word
  · obtain ⟨front, value, rfl, single⟩ := exists_last_mark marked
    rw [beforeLast_append single]
    constructor
    · rintro rfl
      exact Or.inr ⟨value, single, rfl⟩
    · rintro (same | ⟨other, otherSingle, same⟩)
      · exact absurd (same ▸ marked) plain
      · have cut := congrArg (beforeLast mark) same
        rwa [beforeLast_append single, beforeLast_append otherSingle] at cut
  · rw [beforeLast_of_notMem marked]
    constructor
    · exact Or.inl
    · rintro (same | ⟨value, -, rfl⟩)
      · exact same
      · exact absurd (by simp) marked

/-! ## Anchored substitutions -/

/-- `s|^name.*|name=value|` on one line. -/
def substitute (line : Str) (command : Str × Str) : Str :=
  if command.1 <+: line then command.1 ++ '=' :: command.2 else line

/-- The commands of a script run in order on each line. -/
def sedLine (script : List (Str × Str)) (line : Str) : Str := script.foldl substitute line

/-- `sed -i` with a script of anchored substitutions. -/
def sed (script : List (Str × Str)) (text : Str) : Str :=
  unlines ((lines text).map (sedLine script))

/-- No name of the script starts another one. -/
def Separate (script : List (Str × Str)) : Prop :=
  script.Pairwise fun first second => ¬ first.1 <+: second.1 ∧ ¬ second.1 <+: first.1

/-- Two commands that both match a line are the same one. -/
theorem Separate.eq_of_prefixed {script : List (Str × Str)} (separate : Separate script)
    {first second : Str × Str} (hfirst : first ∈ script) (hsecond : second ∈ script) {line : Str}
    (starts : first.1 <+: line) (alsoStarts : second.1 <+: line) : first = second := by
  by_contra different
  have symmetric : Std.Symm fun first second : Str × Str =>
      ¬ first.1 <+: second.1 ∧ ¬ second.1 <+: first.1 := ⟨fun _ _ apart => apart.symm⟩
  have apart := List.Pairwise.forall separate hfirst hsecond different
  rcases List.prefix_or_prefix_of_prefix starts alsoStarts with h | h
  · exact apart.1 h
  · exact apart.2 h

theorem sedLine_of_forall_not_prefixed {script : List (Str × Str)} {line : Str}
    (other : ∀ command ∈ script, ¬ command.1 <+: line) : sedLine script line = line := by
  induction script with
  | nil => rfl
  | cons command script ih =>
    have unchanged : substitute line command = line := if_neg (other command (by simp))
    rw [sedLine, List.foldl_cons, unchanged]
    exact ih fun next member => other next (by simp [member])

/-- Under separate names a line is rewritten by the one command whose name
starts it, whatever stands before and after that command. -/
theorem sedLine_of_prefixed {script : List (Str × Str)} (separate : Separate script)
    {command : Str × Str} (member : command ∈ script) {line : Str}
    (starts : command.1 <+: line) : sedLine script line = command.1 ++ '=' :: command.2 := by
  induction script generalizing line with
  | nil => exact absurd member (by simp)
  | cons first script ih =>
    have tailSeparate : Separate script := (List.pairwise_cons.mp separate).2
    rw [sedLine, List.foldl_cons, substitute]
    split_ifs with firstStarts
    · obtain rfl := separate.eq_of_prefixed (by simp) member firstStarts starts
      by_cases later : first ∈ script
      · exact ih tailSeparate later (List.prefix_append _ _)
      · refine sedLine_of_forall_not_prefixed fun next nextMember nextStarts => later ?_
        rwa [separate.eq_of_prefixed (by simp) (by simp [nextMember]) (List.prefix_append _ _)
          nextStarts]
    · have later : command ∈ script := by
        rcases List.mem_cons.mp member with rfl | later
        · exact absurd starts firstStarts
        · exact later
      exact ih tailSeparate later starts

end BbBot.Unix
