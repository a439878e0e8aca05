/-
# Stamping the scripts

`mkzip.sh` writes the architecture, the version, the status and the date into the
scripts that it ships, with one `s|^name=.*|name=value|` for each of them. Such a
command rewrites the lines that assign its name, and they go on assigning it. So what a
line assigns is not changed by stamping, and the commands can be looked at one by one.

The template of the self-extracting installer is stamped before its offsets are written
into it. Both edits find their own lines, and neither finds those of the other.
-/

import BbBot.SelfExtractor.RoundTrip

namespace BbBot.Build

open BbBot.Unix BbBot.SelfExtractor

/-! ## Assignments -/

/-- The name that a line assigns. -/
def assigned (line : Str) : Option Str :=
  if '=' ∈ line then some (line.takeWhile (· ≠ '=')) else none

/-- `s|^name=.*|name=value|`, on one line. -/
def assign (line : Str) (command : Str × Str) : Str :=
  if (command.1 ++ ['=']).isPrefixOf line then command.1 ++ '=' :: command.2 else line

/-- The commands of a script run in order on each line. -/
def stampLine (script : List (Str × Str)) (line : Str) : Str := script.foldl assign line

/-- `sed -i` with a script of such commands. -/
def stamp (script : List (Str × Str)) (text : Str) : Str :=
  unlines ((lines text).map (stampLine script))

/-- The value that a script gives to a name: the last one. -/
def stampedValue : List (Str × Str) → Str → Option Str
  | [], _ => none
  | command :: script, name =>
    (stampedValue script name).or (if command.1 = name then some command.2 else none)

/-- A script whose names and values can stand in a line that assigns. -/
structure Stamps (script : List (Str × Str)) : Prop where
  name : ∀ command ∈ script, '=' ∉ command.1
  value : ∀ command ∈ script, '\n' ∉ command.2

theorem Stamps.tail {command : Str × Str} {script : List (Str × Str)}
    (stamps : Stamps (command :: script)) : Stamps script :=
  ⟨fun other later => stamps.name other (List.mem_cons_of_mem _ later),
    fun other later => stamps.value other (List.mem_cons_of_mem _ later)⟩

theorem assigned_append {name : Str} (plain : '=' ∉ name) (value : Str) :
    assigned (name ++ '=' :: value) = some name := by
  rw [assigned, if_pos (by simp), List.takeWhile_append_of_pos]
  · simp
  · intro c member
    have different : c ≠ '=' := fun same => plain (same ▸ member)
    simpa using different

theorem eq_of_assigned {name line : Str} (assigns : assigned line = some name) :
    ∃ value, line = name ++ '=' :: value := by
  rw [assigned] at assigns
  split_ifs at assigns with marked
  obtain ⟨front, back, rfl, single⟩ := List.eq_append_cons_of_mem marked
  have starts := assigned_append single back
  rw [assigned, if_pos marked] at starts
  exact ⟨back, by rw [Option.some.inj (starts.symm.trans assigns)]⟩

/-- A line assigns a name when it starts with the name and an equals sign. -/
theorem assigned_eq_some_iff {name line : Str} (plain : '=' ∉ name) :
    assigned line = some name ↔ (name ++ ['=']).isPrefixOf line = true := by
  rw [List.isPrefixOf_iff_prefix]
  constructor
  · intro assigns
    obtain ⟨value, rfl⟩ := eq_of_assigned assigns
    exact ⟨value, by simp⟩
  · rintro ⟨value, rfl⟩
    rw [List.append_assoc, List.singleton_append, assigned_append plain]

theorem assign_eq {command : Str × Str} (plain : '=' ∉ command.1) (line : Str) :
    assign line command =
      if assigned line = some command.1 then command.1 ++ '=' :: command.2 else line := by
  rw [assign]
  exact if_congr (assigned_eq_some_iff plain).symm rfl rfl

theorem assigned_assign {command : Str × Str} (plain : '=' ∉ command.1) (line : Str) :
    assigned (assign line command) = assigned line := by
  rw [assign_eq plain]
  split_ifs with assigns
  · rw [assigned_append plain, assigns]
  · rfl

/-- A line that assigns a name is given the script's value of it, and other lines are
left alone. -/
theorem stampLine_eq {script : List (Str × Str)} (stamps : Stamps script) (line : Str) :
    stampLine script line =
      match assigned line with
      | some name => ((stampedValue script name).map fun value => name ++ '=' :: value).getD line
      | none => line := by
  induction script generalizing line with
  | nil =>
    cases assigned line with
    | none => rfl
    | some name => rfl
  | cons command script ih =>
    have plain := stamps.name command List.mem_cons_self
    rw [stampLine, List.foldl_cons, ← stampLine, ih stamps.tail, assigned_assign plain,
      assign_eq plain]
    cases assigns : assigned line with
    | none => rw [if_neg (by simp)]
    | some name =>
      simp only [Option.some.injEq, stampedValue]
      cases stampedValue script name with
      | some value => rfl
      | none =>
        by_cases same : name = command.1
        · subst same
          simp
        · simp [same, Ne.symm same]

theorem stampLine_of_none {script : List (Str × Str)} (stamps : Stamps script) {line : Str}
    (other : ∀ name, assigned line = some name → stampedValue script name = none) :
    stampLine script line = line := by
  rw [stampLine_eq stamps]
  cases assigns : assigned line with
  | none => rfl
  | some name =>
    simp only
    rw [other name assigns]
    rfl

theorem assigned_stampLine {script : List (Str × Str)} (stamps : Stamps script) (line : Str) :
    assigned (stampLine script line) = assigned line := by
  induction script generalizing line with
  | nil => rfl
  | cons command script ih =>
    rw [stampLine, List.foldl_cons, ← stampLine, ih stamps.tail,
      assigned_assign (stamps.name command List.mem_cons_self)]

theorem newline_notMem_stampedValue {script : List (Str × Str)} (stamps : Stamps script)
    {name value : Str} (valued : stampedValue script name = some value) : '\n' ∉ value := by
  induction script with
  | nil => exact absurd valued (by simp [stampedValue])
  | cons command script ih =>
    rw [stampedValue] at valued
    rcases Option.or_eq_some_iff.mp valued with later | ⟨-, first⟩
    · exact ih stamps.tail later
    · split_ifs at first
      rw [← Option.some.inj first]
      exact stamps.value command List.mem_cons_self

theorem newline_notMem_stampLine {script : List (Str × Str)} (stamps : Stamps script)
    {line : Str} (single : '\n' ∉ line) : '\n' ∉ stampLine script line := by
  rw [stampLine_eq stamps]
  cases assigns : assigned line with
  | none => exact single
  | some name =>
    simp only
    cases valued : stampedValue script name with
    | none => exact single
    | some value =>
      rw [Option.map_some, Option.getD_some]
      have inName : '\n' ∉ name := by
        rw [assigned] at assigns
        split_ifs at assigns
        rw [← Option.some.inj assigns]
        exact fun member => single ((List.takeWhile_prefix _).subset member)
      simp [inName, newline_notMem_stampedValue stamps valued]

theorem lines_stamp {script : List (Str × Str)} (stamps : Stamps script) (text : Str) :
    lines (stamp script text) = (lines text).map (stampLine script) := by
  apply lines_unlines
  · simp [lines]
  · intro piece member
    obtain ⟨line, isLine, rfl⟩ := List.mem_map.mp member
    exact newline_notMem_stampLine stamps (newline_notMem_of_mem_lines isLine)

/-- What a stamped text assigns to a name: the value of the script, where the text assigns
the name at all, and for other names what it assigned before. -/
theorem setting_stamp {script : List (Str × Str)} (stamps : Stamps script) {name : Str}
    (plain : '=' ∉ name) (text : Str) :
    setting (stamp script text) name =
      match stampedValue script name with
      | some value => if ∃ line ∈ lines text, assigned line = some name then value else []
      | none => setting text name := by
  have finds (line : Str) : (name ++ ['=']).isPrefixOf (stampLine script line) =
      (name ++ ['=']).isPrefixOf line := by
    rw [Bool.eq_iff_iff, ← assigned_eq_some_iff plain, ← assigned_eq_some_iff plain,
      assigned_stampLine stamps]
  rw [setting, lines_stamp stamps, List.find?_map]
  simp only [Function.comp_def, finds]
  rw [setting]
  cases found : (lines text).find? fun line => (name ++ ['=']).isPrefixOf line with
  | none =>
    have nowhere : ¬ ∃ line ∈ lines text, assigned line = some name := by
      rintro ⟨line, isLine, assigns⟩
      exact List.find?_eq_none.mp found line isLine ((assigned_eq_some_iff plain).mp assigns)
    cases stampedValue script name with
    | none => rfl
    | some value => exact (if_neg nowhere).symm
  | some line =>
    have assigns := (assigned_eq_some_iff plain).mpr (List.find?_some found)
    have stamped : stampLine script line =
        ((stampedValue script name).map fun value => name ++ '=' :: value).getD line := by
      rw [stampLine_eq stamps, assigns]
    rw [Option.map_some]
    simp only [stamped]
    cases stampedValue script name with
    | none => rfl
    | some value =>
      simp only [Option.map_some, Option.getD_some]
      rw [if_pos ⟨line, List.mem_of_find?_eq_some found, assigns⟩, List.drop_append]
      simp

/-! ## Two edits of one template -/

theorem mem_of_stampedValue {script : List (Str × Str)} {name value : Str}
    (valued : stampedValue script name = some value) : (name, value) ∈ script := by
  induction script with
  | nil => exact absurd valued (by simp [stampedValue])
  | cons command script ih =>
    rw [stampedValue] at valued
    rcases Option.or_eq_some_iff.mp valued with later | ⟨-, first⟩
    · exact List.mem_cons_of_mem _ (ih later)
    · split_ifs at first with same
      rw [← same, ← Option.some.inj first]
      exact List.mem_cons_self

/-- What starts an assignment without reaching its equals sign starts its name. -/
theorem prefixes_name {start name value : Str} (plain : '=' ∉ start)
    (starts : start <+: name ++ '=' :: value) : start <+: name := by
  rcases List.prefix_or_prefix_of_prefix starts (List.prefix_append _ _) with short | long
  · exact short
  · obtain ⟨rest, rfl⟩ := long
    have reaches : rest <+: '=' :: value := (List.prefix_append_right_inj _).mp starts
    cases rest with
    | nil => exact (List.append_nil name).symm ▸ List.prefix_rfl
    | cons c rest =>
      obtain ⟨rfl, -⟩ := List.cons_prefix_cons.mp reaches
      exact absurd (by simp) plain

/-- No setting of the installer starts a name of the script. -/
def Apart (script : List (Str × Str)) : Prop :=
  ∀ name ∈ settingNames, ∀ command ∈ script, ¬ name <+: command.1

theorem settingName_plain : ∀ name ∈ settingNames, '=' ∉ name := by decide

section Template

variable {script : List (Str × Str)} (stamps : Stamps script) (apart : Apart script)

include stamps apart

/-- A line that starts with a setting's name is not stamped. -/
theorem stampLine_of_setting {name line : Str} (member : name ∈ settingNames)
    (starts : name <+: line) : stampLine script line = line := by
  apply stampLine_of_none stamps
  intro other assigns
  obtain ⟨rest, rfl⟩ := eq_of_assigned assigns
  have short := prefixes_name (settingName_plain name member) starts
  cases valued : stampedValue script other with
  | none => rfl
  | some value => exact absurd short (apart name member _ (mem_of_stampedValue valued))

/-- Stamping makes no line start with a setting's name. -/
theorem prefix_stampLine_iff {name : Str} (member : name ∈ settingNames) (line : Str) :
    name <+: stampLine script line ↔ name <+: line := by
  constructor
  · intro starts
    rw [stampLine_eq stamps] at starts
    cases assigns : assigned line with
    | none => rwa [assigns] at starts
    | some other =>
      simp only [assigns] at starts
      cases valued : stampedValue script other with
      | none => rwa [valued] at starts
      | some value =>
        rw [valued, Option.map_some, Option.getD_some] at starts
        have short := prefixes_name (settingName_plain name member) starts
        exact absurd short (apart name member _ (mem_of_stampedValue valued))
  · intro starts
    rwa [stampLine_of_setting stamps apart member starts]

end Template

/-- A stamped template is a template. -/
def stampTemplate {script : List (Str × Str)} (stamps : Stamps script) (apart : Apart script)
    (template : Template) : Template where
  body := stamp script template.body
  tail := stampLine script template.tail
  tail_unfinished := newline_notMem_stampLine stamps template.tail_unfinished
  placeholder := by
    intro name member
    obtain ⟨digits, width, only⟩ := template.placeholder name member
    refine ⟨digits, width, ?_⟩
    have same : (fun line => name.isPrefixOf line) ∘ stampLine script =
        fun line => name.isPrefixOf line := by
      funext line
      rw [Function.comp_apply, Bool.eq_iff_iff, List.isPrefixOf_iff_prefix,
        List.isPrefixOf_iff_prefix, prefix_stampLine_iff stamps apart member]
    rw [lines_stamp stamps, List.filter_map, same, only, List.map_singleton,
      stampLine_of_setting stamps apart member (List.prefix_append _ _)]
  tail_other := by
    intro name member starts
    exact template.tail_other name member
      ((prefix_stampLine_iff stamps apart member _).mp starts)

/-- The text of a stamped template is the stamped text. -/
theorem text_stampTemplate {script : List (Str × Str)} (stamps : Stamps script)
    (apart : Apart script) (template : Template) :
    (stampTemplate stamps apart template).text = stamp script template.text := by
  rw [Template.text, Template.text, stamp, lines_append_newline,
    lines_of_notMem template.tail_unfinished, List.map_append, List.map_singleton,
    unlines_append _ _ (by simp [lines])]
  rfl

/-- What a stamped installer assigns to other names is what its template assigns. -/
theorem setting_script_other (template : Template) {layout : Layout} (fits : layout.Fits)
    (padding : ℕ) (payload : Str) {name : Str} (plain : '=' ∉ name)
    (other : ∀ setting ∈ settingNames, ¬ setting <+: name)
    (there : ∃ line ∈ lines template.body, assigned line = some name) :
    setting (template.script layout padding ++ payload) name = setting template.text name := by
  -- The lines that assign the name are not those that are rewritten.
  have kept {line : Str} (assigns : assigned line = some name) :
      sedLine layout.fields.script line = line := by
    apply sedLine_of_forall_not_prefixed
    intro command member starts
    obtain ⟨value, rfl⟩ := eq_of_assigned assigns
    have inNames := mem_settingNames member
    exact other _ inNames (prefixes_name (settingName_plain _ inNames) starts)
  have finds (line : Str) : (name ++ ['=']).isPrefixOf (sedLine layout.fields.script line) =
      (name ++ ['=']).isPrefixOf line := by
    rw [Bool.eq_iff_iff, ← assigned_eq_some_iff plain, ← assigned_eq_some_iff plain]
    constructor
    · intro assigns
      by_cases untouched : ∀ command ∈ layout.fields.script, ¬ command.1 <+: line
      · rwa [sedLine_of_forall_not_prefixed untouched] at assigns
      · push Not at untouched
        obtain ⟨command, member, starts⟩ := untouched
        have inNames := mem_settingNames member
        rw [sedLine_of_prefixed (script_separate _) member starts,
          assigned_append (settingName_plain _ inNames)] at assigns
        exact absurd (Option.some.inj assigns ▸ List.prefix_rfl) (other _ inNames)
    · intro assigns
      rwa [kept assigns]
  obtain ⟨first, isFirst, assigns⟩ := there
  obtain ⟨line, found⟩ := Option.isSome_iff_exists.mp
    (List.find?_isSome.mpr ⟨first, isFirst, (assigned_eq_some_iff plain).mp assigns⟩)
  have same := kept ((assigned_eq_some_iff plain).mpr (List.find?_some found))
  rw [Template.script, List.append_assoc, List.cons_append, setting, setting, Template.text,
    lines_append_newline, lines_append_newline, template.lines_stamped fits, List.find?_append,
    List.find?_append, List.find?_map]
  simp only [Function.comp_def, finds, found, Option.map_some, Option.some_or, same]

end BbBot.Build
