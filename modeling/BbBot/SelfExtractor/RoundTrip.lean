/-
# The self-extracting installer gives its payloads back

The settings are computed from the padded script before it is rewritten in
place, so they are right only when the rewriting moves no byte. Three facts
carry the round trip: the search finds a block size that divides both the padded
script and the first payload, every setting is stamped with as many characters
as its placeholder had, and no placeholder line is the unterminated line that
the padding extends.
-/

import BbBot.SelfExtractor.BlockSize

namespace BbBot.SelfExtractor

open BbBot.Unix

/-! ## Stamping the template -/

/-- The names the script assigns its settings under. -/
def settingNames : List Str :=
  ["byteCountDD".toList, "byteCount7z".toList, "byteCountBB".toList, "blockSize".toList,
    "bytesToSkipDD".toList, "bytesToSkip7z".toList, "bytesToSkipBB".toList]

/-- A script to be stamped: complete lines, then whatever follows the last
newline. Each setting is assigned on one complete line, with a placeholder of
eight digits, and no other line starts with its name. -/
structure Template where
  body : Str
  tail : Str
  tail_unfinished : '\n' ∉ tail
  placeholder : ∀ name ∈ settingNames, ∃ digits : Str, digits.length = 8 ∧
    (lines body).filter (fun line => name.isPrefixOf line) = [name ++ '=' :: digits]
  tail_other : ∀ name ∈ settingNames, ¬ name <+: tail

/-- The text of the script. -/
def Template.text (template : Template) : Str := template.body ++ '\n' :: template.tail

theorem script_names (fields : Fields) : fields.script.map Prod.fst = settingNames := rfl

theorem script_separate (fields : Fields) : Separate fields.script := by
  have names : settingNames.Pairwise fun first second =>
      ¬ first <+: second ∧ ¬ second <+: first := by decide
  rw [← script_names fields, List.pairwise_map] at names
  exact names

theorem mem_settingNames {fields : Fields} {command : Str × Str}
    (member : command ∈ fields.script) : command.1 ∈ settingNames :=
  script_names fields ▸ List.mem_map_of_mem member

theorem newline_notMem_settingName {name : Str} (member : name ∈ settingNames) :
    '\n' ∉ name := by
  revert name
  decide

/-- Every stamped value is a padded decimal of eight digits. -/
def Layout.Fits (layout : Layout) : Prop :=
  ∀ command ∈ layout.fields.script, command.2.length = 8 ∧ '\n' ∉ command.2

theorem Layout.fits_of_lt {layout : Layout} (bound : ∀ n ∈ [layout.countDD, layout.count7z,
    layout.countBB, layout.block, layout.skipDD, layout.skip7z, layout.skipBB], n < 10 ^ 8) :
    layout.Fits := by
  have field (n : ℕ) (small : n < 10 ^ 8) :
      (padZero (decimal n)).length = 8 ∧ '\n' ∉ padZero (decimal n) :=
    ⟨length_padZero small, newline_notMem_padZero n⟩
  simp only [List.mem_cons, List.not_mem_nil, or_false, forall_eq_or_imp, forall_eq] at bound
  obtain ⟨h₁, h₂, h₃, h₄, h₅, h₆, h₇⟩ := bound
  simp only [Layout.Fits, Layout.fields, Fields.script, List.mem_cons, List.not_mem_nil,
    or_false, forall_eq_or_imp, forall_eq]
  exact ⟨field _ h₁, field _ h₂, field _ h₃, field _ h₄, field _ h₅, field _ h₆, field _ h₇⟩

section Stamp

variable (template : Template) {layout : Layout} (fits : layout.Fits)

/-- The only line that starts with a setting's name is its placeholder. -/
theorem Template.eq_placeholder {name line : Str} (member : name ∈ settingNames)
    (inBody : line ∈ lines template.body) (starts : name <+: line) :
    ∃ digits : Str, digits.length = 8 ∧ line = name ++ '=' :: digits := by
  obtain ⟨digits, width, only⟩ := template.placeholder name member
  refine ⟨digits, width, ?_⟩
  have kept : line ∈ (lines template.body).filter fun line => name.isPrefixOf line :=
    List.mem_filter.mpr ⟨inBody, List.isPrefixOf_iff_prefix.mpr starts⟩
  rw [only] at kept
  exact List.mem_singleton.mp kept

/-- Stamping keeps the length of every line. -/
theorem Template.length_sedLine {line : Str} (inBody : line ∈ lines template.body)
    (fits : layout.Fits) : (sedLine layout.fields.script line).length = line.length := by
  by_cases other : ∀ command ∈ layout.fields.script, ¬ command.1 <+: line
  · rw [sedLine_of_forall_not_prefixed other]
  · push Not at other
    obtain ⟨command, member, starts⟩ := other
    -- A placeholder line, whose eight digits are replaced by eight others.
    obtain ⟨digits, width, rfl⟩ :=
      template.eq_placeholder (mem_settingNames member) inBody starts
    rw [sedLine_of_prefixed (script_separate _) member starts]
    simp [width, (fits command member).1]

theorem newline_notMem_sedLine {line : Str} (single : '\n' ∉ line) (fits : layout.Fits) :
    '\n' ∉ sedLine layout.fields.script line := by
  by_cases other : ∀ command ∈ layout.fields.script, ¬ command.1 <+: line
  · rwa [sedLine_of_forall_not_prefixed other]
  · push Not at other
    obtain ⟨command, member, starts⟩ := other
    rw [sedLine_of_prefixed (script_separate _) member starts]
    have name := newline_notMem_settingName (mem_settingNames member)
    simp [name, (fits command member).2]

/-- The complete lines after stamping. -/
def Template.stamped (template : Template) (fields : Fields) : Str :=
  unlines ((lines template.body).map (sedLine fields.script))

theorem Template.length_stamped (fits : layout.Fits) :
    (template.stamped layout.fields).length = template.body.length := by
  rw [stamped, length_unlines_map _ _ fun line inBody => template.length_sedLine inBody fits,
    unlines_lines]

theorem Template.lines_stamped (fits : layout.Fits) :
    lines (template.stamped layout.fields) =
      (lines template.body).map (sedLine layout.fields.script) := by
  apply lines_unlines
  · simp [lines]
  · intro piece member
    obtain ⟨line, inBody, rfl⟩ := List.mem_map.mp member
    exact newline_notMem_sedLine (newline_notMem_of_mem_lines inBody) fits

/-- The padding extends the unterminated line, which still starts with no
setting's name because no name contains a `#`. -/
theorem Template.padded_tail_other (padding : ℕ) {name : Str} (member : name ∈ settingNames) :
    ¬ name <+: template.tail ++ List.replicate padding '#' := by
  intro starts
  -- The name ends within the old line, or its end is made of hashes.
  rcases List.prefix_or_prefix_of_prefix starts (List.prefix_append _ _) with short | long
  · exact template.tail_other name member short
  · obtain ⟨rest, rfl⟩ := long
    have hashes : rest <+: List.replicate padding '#' :=
      (List.prefix_append_right_inj _).mp starts
    have noHash : '#' ∉ template.tail ++ rest :=
      (show ∀ name ∈ settingNames, '#' ∉ name by decide) _ member
    cases rest with
    | nil => exact template.tail_other _ member (by simp)
    | cons c rest =>
      have same : c = '#' := List.eq_of_mem_replicate (hashes.subset (by simp))
      exact noHash (by simp [same])

/-- Stamping a padded script rewrites its complete lines only. -/
theorem Template.sed_padded (padding : ℕ) :
    sed layout.fields.script (template.text ++ List.replicate padding '#') =
      template.stamped layout.fields ++
        '\n' :: (template.tail ++ List.replicate padding '#') := by
  have single : '\n' ∉ template.tail ++ List.replicate padding '#' := by
    rw [List.mem_append, not_or]
    refine ⟨template.tail_unfinished, fun hash => ?_⟩
    exact absurd (List.eq_of_mem_replicate hash) (by decide)
  -- The last line is no placeholder, with or without the hashes.
  have unchanged : sedLine layout.fields.script
      (template.tail ++ List.replicate padding '#') =
        template.tail ++ List.replicate padding '#' :=
    sedLine_of_forall_not_prefixed fun command member =>
      template.padded_tail_other padding (mem_settingNames member)
  rw [Template.text, List.append_assoc, List.cons_append, sed, lines_append_newline,
    lines_of_notMem single, List.map_append, List.map_singleton, unchanged,
    unlines_append _ _ (by simp [lines])]
  rfl

/-- A stamped script reads back the values it was stamped with, whatever bytes
follow its complete lines. -/
theorem Template.setting_stamped (fits : layout.Fits) {command : Str × Str}
    (member : command ∈ layout.fields.script) (rest : Str) :
    setting (template.stamped layout.fields ++ '\n' :: rest) command.1 = command.2 := by
  have rewritten (line : Str) (starts : command.1 <+: line) :
      sedLine layout.fields.script line = command.1 ++ '=' :: command.2 :=
    sedLine_of_prefixed (script_separate _) member starts
  -- After stamping, the lines that assign the setting are those that did before.
  have assigns (line : Str) : ((command.1 ++ ['=']).isPrefixOf
      (sedLine layout.fields.script line)) = command.1.isPrefixOf line := by
    rw [Bool.eq_iff_iff, List.isPrefixOf_iff_prefix, List.isPrefixOf_iff_prefix]
    constructor
    · intro assigned
      have starts := (List.prefix_append _ _).trans assigned
      by_cases other : ∀ other ∈ layout.fields.script, ¬ other.1 <+: line
      · rwa [sedLine_of_forall_not_prefixed other] at starts
      · push Not at other
        obtain ⟨other, otherMember, otherStarts⟩ := other
        rw [sedLine_of_prefixed (script_separate _) otherMember otherStarts] at starts
        rwa [(script_separate _).eq_of_prefixed member otherMember starts
          (List.prefix_append _ _)]
    · intro starts
      rw [rewritten line starts]
      exact ⟨command.2, by simp⟩
  obtain ⟨digits, -, only⟩ := template.placeholder _ (mem_settingNames member)
  -- There is one such line in the template, so it is the first one.
  have found : (lines template.body).find? (fun line => command.1.isPrefixOf line) =
      some (command.1 ++ '=' :: digits) := by
    rw [← List.head?_filter, only, List.head?_cons]
  rw [setting, lines_append_newline, template.lines_stamped fits, List.find?_append,
    List.find?_map]
  simp only [Function.comp_def, assigns, found, Option.map_some, Option.some_or]
  rw [rewritten _ (List.prefix_append _ _)]
  simp

end Stamp

/-! ## Reading the payloads back -/

/-- Bytes behind a script are read back from their offset. -/
theorem ddYds_append (script before payload after : Str) :
    ddYds (script ++ before ++ payload ++ after) (script.length + before.length)
      payload.length = payload := by
  rw [ddYds, ← List.length_append, List.append_assoc, List.drop_left, List.take_left]

/-- Whole blocks are read back when the block size divides offset and length. -/
theorem ddCopy_append {block : ℕ} {script payload : Str} (after : Str)
    (dividesScript : block ∣ script.length) (dividesPayload : block ∣ payload.length) :
    ddCopy (script ++ payload ++ after) (script.length / block) block
      (payload.length / block) = payload := by
  rw [ddCopy, Nat.div_mul_cancel dividesScript, Nat.div_mul_cancel dividesPayload,
    List.append_assoc, List.drop_left, List.take_left]

/-- The script part of an installer: stamped lines, then the padded last line. -/
def Template.script (template : Template) (layout : Layout) (padding : ℕ) : Str :=
  template.stamped layout.fields ++ '\n' :: (template.tail ++ List.replicate padding '#')

theorem Template.length_script (template : Template) {layout : Layout} (fits : layout.Fits)
    (padding : ℕ) :
    (template.script layout padding).length = template.text.length + padding := by
  simp only [script, text, List.length_append, List.length_cons, template.length_stamped fits,
    List.length_replicate]
  omega

/-- The payloads follow the script, so they do not disturb its settings. -/
theorem Template.setting_script (template : Template) {layout : Layout} (fits : layout.Fits)
    (padding : ℕ) (payload : Str) {command : Str × Str}
    (member : command ∈ layout.fields.script) :
    setting (template.script layout padding ++ payload) command.1 = command.2 := by
  rw [script, List.append_assoc, List.cons_append]
  exact template.setting_stamped fits member _

/-- The build for the padding and the block size that the search has found. -/
theorem mkSee_eq (template : Template) {rounds padding block : ℕ} {dd : Str}
    (sevenZip bbx : Str) (positive : 0 < block)
    (found : search rounds template.text.length (padZero (decimal dd.length)) =
      some ⟨padZero (decimal block), padding⟩) :
    mkSee rounds template.text dd sevenZip bbx =
      some (template.script (layoutFor (template.text.length + padding) block dd.length
        sevenZip.length bbx.length) padding ++ dd ++ sevenZip ++ bbx) := by
  -- The search is known, and the rest of the build is straight-line code.
  simp only [mkSee, found, Option.bind_eq_bind, Option.bind_some]
  rw [List.length_append, List.length_replicate, fieldsFor_eq positive, template.sed_padded]
  rfl

/-- A file whose settings spell a layout is cut where the layout says. -/
theorem extract_eq {file : Str} {layout : Layout}
    (read : ∀ command ∈ layout.fields.script, setting file command.1 = command.2) :
    extractDD file = some (ddCopy file layout.skipDD layout.block layout.countDD) ∧
      extract7z file = some (ddYds file layout.skip7z layout.count7z) ∧
      extractBB file = some (ddYds file layout.skipBB layout.countBB) := by
  simp only [Layout.fields, Fields.script, List.mem_cons, List.not_mem_nil, or_false,
    forall_eq_or_imp, forall_eq] at read
  obtain ⟨countDD, count7z, countBB, block, skipDD, skip7z, skipBB⟩ := read
  simp only [extractDD, extract7z, extractBB, extractWith, countDD, count7z, countBB, block,
    skipDD, skip7z, skipBB, readDecimal_padZero, Option.bind_eq_bind, Option.bind_some,
    and_self]

/-- Sizes that fit the placeholders give settings that fit them. -/
theorem layoutFor_fits {size block dd sevenZip bbx : ℕ} (blockFits : block ≤ dd)
    (offsetsFit : size + dd + sevenZip < 10 ^ 8) (archiveFits : bbx < 10 ^ 8) :
    (layoutFor size block dd sevenZip bbx).Fits := by
  apply Layout.fits_of_lt
  have blocks : dd / block ≤ dd := Nat.div_le_self _ _
  have skipped : size / block ≤ size := Nat.div_le_self _ _
  simp only [List.mem_cons, List.not_mem_nil, or_false, forall_eq_or_imp, forall_eq, layoutFor]
  omega

/-- The cuts of a layout are the payloads behind a script of its size. -/
theorem layoutFor_cuts {size block : ℕ} {script dd : Str} (sevenZip bbx : Str)
    (scriptLength : script.length = size) (dividesScript : block ∣ size)
    (dividesPayload : block ∣ dd.length) :
    let layout := layoutFor size block dd.length sevenZip.length bbx.length
    let file := script ++ (dd ++ sevenZip ++ bbx)
    ddCopy file layout.skipDD layout.block layout.countDD = dd ∧
      ddYds file layout.skip7z layout.count7z = sevenZip ∧
      ddYds file layout.skipBB layout.countBB = bbx := by
  subst scriptLength
  simp only [layoutFor]
  refine ⟨?_, ?_, ?_⟩
  -- Each payload is read with everything before it taken for the script.
  · rw [List.append_assoc dd, ← List.append_assoc script,
      ddCopy_append _ dividesScript dividesPayload]
  · rw [← List.append_assoc script, ← List.append_assoc script, ddYds_append]
  · have reading := ddYds_append script (dd ++ sevenZip) bbx []
    simpa [Nat.add_assoc] using reading

/-- The installer built from a template and three payloads gives each payload
back, byte for byte, when its own extraction commands run on it. Any number of
rounds beyond the size of the first payload lets the build finish. -/
theorem mkSee_roundTrip (template : Template) (dd sevenZip bbx : Str) (nonempty : dd ≠ [])
    (offsetsFit : template.text.length + 20 + dd.length + sevenZip.length < 10 ^ 8)
    (archiveFits : bbx.length < 10 ^ 8) :
    ∀ rounds > dd.length, ∃ file, mkSee rounds template.text dd sevenZip bbx = some file ∧
      extractDD file = some dd ∧ extract7z file = some sevenZip ∧ extractBB file = some bbx := by
  intro rounds enough
  have positive : 0 < dd.length := List.length_pos_of_ne_nil nonempty
  obtain ⟨padding, within, -, -, found⟩ :=
    search_eq template.text.length positive enough
  have blockPositive := Nat.gcd_pos_of_pos_right (template.text.length + padding) positive
  have dividesScript := Nat.gcd_dvd_left (template.text.length + padding) dd.length
  have dividesPayload := Nat.gcd_dvd_right (template.text.length + padding) dd.length
  generalize Nat.gcd (template.text.length + padding) dd.length = block at *
  have fits : (layoutFor (template.text.length + padding) block dd.length sevenZip.length
      bbx.length).Fits :=
    layoutFor_fits (Nat.le_of_dvd positive dividesPayload) (by omega) archiveFits
  -- Everything after the script is kept together while its settings are read.
  have built := mkSee_eq template sevenZip bbx blockPositive found
  rw [List.append_assoc _ dd, List.append_assoc _ (dd ++ sevenZip)] at built
  obtain ⟨first, second, third⟩ := extract_eq fun command member =>
    template.setting_script fits padding (dd ++ sevenZip ++ bbx) member
  obtain ⟨firstCut, secondCut, thirdCut⟩ := layoutFor_cuts sevenZip bbx
    (template.length_script fits padding) dividesScript dividesPayload
  exact ⟨_, built, first.trans (congrArg some firstCut), second.trans (congrArg some secondCut),
    third.trans (congrArg some thirdCut)⟩

/-- A script with the seven placeholders and an unterminated last line. -/
def miniature : Template where
  body := unlines ["#!/system/bin/sh".toList, "byteCountDD=00000000".toList,
    "byteCount7z=00000000".toList, "byteCountBB=00000000".toList,
    "bytesToSkipDD=00000000".toList, "bytesToSkip7z=00000000".toList,
    "bytesToSkipBB=00000000".toList, "blockSize=00000001".toList, "exit 0".toList]
  tail := "####".toList
  tail_unfinished := by decide
  placeholder := by
    simp only [settingNames, List.mem_cons, List.not_mem_nil, or_false, forall_eq_or_imp,
      forall_eq]
    exact ⟨⟨"00000000".toList, by decide +kernel⟩, ⟨"00000000".toList, by decide +kernel⟩,
      ⟨"00000000".toList, by decide +kernel⟩, ⟨"00000001".toList, by decide +kernel⟩,
      ⟨"00000000".toList, by decide +kernel⟩, ⟨"00000000".toList, by decide +kernel⟩,
      ⟨"00000000".toList, by decide +kernel⟩⟩
  tail_other := by decide

theorem mkSee_roundTrip_miniature : ∃ file,
    mkSee 4 miniature.text "dd!".toList "7z".toList "bbx\nblockSize=9".toList = some file ∧
      extractDD file = some "dd!".toList ∧ extract7z file = some "7z".toList ∧
      extractBB file = some "bbx\nblockSize=9".toList :=
  mkSee_roundTrip miniature _ _ _ (by decide) (by decide +kernel) (by decide) 4 (by decide)

end BbBot.SelfExtractor
