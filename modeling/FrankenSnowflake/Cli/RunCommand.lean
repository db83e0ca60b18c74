import FrankenSnowflake.Foundation.Shell
import FrankenSnowflake.Foundation.Split
import FrankenSnowflake.Foundation.Unicode

/-!
# The suggested command of a dataset query

A plan names the command that runs it.  A value is quoted if it has whitespace,
the filter always is, and the profile, the dataset and the columns never are.
-/

namespace FrankenSnowflake.DatasetMode

open Foundation

abbrev Text : Type := List Char

/-- Parsed dataset-mode flags. -/
structure DatasetQuerySpec where
  datasetId : Text
  entity : Option Text
  «from» : Option Text
  «to» : Option Text
  asOf : Option Text
  select : List Text
  filter : Option Text
  limit : Option Text
deriving DecidableEq, Repr

/-- The flags whose values are quoted if they have whitespace. -/
def DatasetQuerySpec.flags (spec : DatasetQuerySpec) : List (String × Option Text) :=
  [("--entity", spec.entity), ("--from", spec.«from»), ("--to", spec.«to»), ("--as-of", spec.asOf),
    ("--limit", spec.limit)]

def flagText (flag : String) (value : Text) : Text :=
  if value.any Unicode.isWhitespace then
    ' ' :: flag.toList ++ " '".toList ++ value ++ ['\'']
  else ' ' :: flag.toList ++ ' ' :: value

/-- The copy-pasteable `query run --dataset ...` form of a spec. -/
def runCommandFor (spec : DatasetQuerySpec) (profile : Text) : Text :=
  "franken-snowflake query run --profile ".toList ++ profile ++ " --dataset ".toList ++
    spec.datasetId ++
    spec.flags.flatMap (fun (flag, value) ↦ value.elim [] (flagText flag)) ++
    (if spec.select = [] then [] else " --select ".toList ++ [','].intercalate spec.select) ++
    spec.filter.elim [] (fun filter ↦ " --filter '".toList ++ filter ++ ['\'']) ++ " --json".toList

/-- `select` list helper shared by the parser: comma-separated column names. -/
def parseSelect (raw : Option Text) : List Text :=
  raw.elim [] fun value ↦
    ((value.splitOn ',').map Unicode.trim).filter fun part ↦ !part.isEmpty

/-! ## The command's words -/

/-- A flag of the command, and whether its value is quoted. -/
structure Argument where
  flag : String
  value : Text
  quoted : Bool
deriving DecidableEq, Repr

namespace Argument

def text (a : Argument) : Text :=
  ' ' :: a.flag.toList ++ ' ' :: if a.quoted then '\'' :: (a.value ++ ['\'']) else a.value

/-- A value that the shell reads as it was. -/
def Safe (a : Argument) : Prop := if a.quoted then '\'' ∉ a.value else Shell.IsWord a.value

end Argument

def optionArgument (flag : String) (value : Text) : Argument :=
  ⟨flag, value, value.any Unicode.isWhitespace⟩

def DatasetQuerySpec.arguments (spec : DatasetQuerySpec) (profile : Text) : List Argument :=
  [⟨"--profile", profile, false⟩, ⟨"--dataset", spec.datasetId, false⟩] ++
    spec.flags.flatMap (fun (flag, value) ↦ value.elim [] fun value ↦ [optionArgument flag value]) ++
    (if spec.select = [] then [] else [⟨"--select", [','].intercalate spec.select, false⟩]) ++
    spec.filter.elim [] (fun filter ↦ [⟨"--filter", filter, true⟩])

/-- The words of the command that a spec and a profile stand for. -/
def DatasetQuerySpec.words (spec : DatasetQuerySpec) (profile : Text) : List Text :=
  ["franken-snowflake".toList, "query".toList, "run".toList] ++
    ((spec.arguments profile).flatMap fun a ↦ [a.flag.toList, a.value]) ++ ["--json".toList]

theorem text_optionArgument (flag : String) (value : Text) :
    (optionArgument flag value).text = flagText flag value := by
  unfold optionArgument Argument.text flagText
  cases value.any Unicode.isWhitespace with
  | true => simp
  | false => simp

theorem runCommandFor_eq (spec : DatasetQuerySpec) (profile : Text) :
    runCommandFor spec profile =
      "franken-snowflake query run".toList ++
        ((spec.arguments profile).flatMap Argument.text ++ " --json".toList) := by
  have hflags : (spec.flags.flatMap fun (flag, value) ↦ value.elim [] (flagText flag)) =
      (spec.flags.flatMap fun (flag, value) ↦
        value.elim [] fun value ↦ [optionArgument flag value]).flatMap Argument.text := by
    rw [List.flatMap_assoc]
    refine List.flatMap_congr fun (flag, value) _ ↦ ?_
    cases value with
    | none => rfl
    | some value =>
        dsimp only [Option.elim]
        rw [List.flatMap_singleton, text_optionArgument]
  have hselect : (if spec.select = [] then [] else
        " --select ".toList ++ [','].intercalate spec.select) =
      (if spec.select = [] then [] else
        [(⟨"--select", [','].intercalate spec.select, false⟩ : Argument)]).flatMap Argument.text := by
    have htext : " --select ".toList = ' ' :: "--select".toList ++ [' '] := rfl
    split_ifs
    · rfl
    · rw [List.flatMap_singleton, htext, Argument.text]
      simp
  have hfilter : spec.filter.elim [] (fun filter ↦ " --filter '".toList ++ filter ++ ['\'']) =
      (spec.filter.elim [] fun filter ↦
        [(⟨"--filter", filter, true⟩ : Argument)]).flatMap Argument.text := by
    have htext : " --filter '".toList = ' ' :: "--filter".toList ++ [' ', '\''] := rfl
    cases spec.filter with
    | none => rfl
    | some filter =>
        dsimp only [Option.elim]
        rw [List.flatMap_singleton, htext, Argument.text]
        simp
  have hprofile : " --profile ".toList = ' ' :: "--profile".toList ++ [' '] := rfl
  have hdataset : " --dataset ".toList = ' ' :: "--dataset".toList ++ [' '] := rfl
  have hstart : "franken-snowflake query run --profile ".toList =
      "franken-snowflake query run".toList ++ " --profile ".toList := rfl
  unfold runCommandFor DatasetQuerySpec.arguments
  rw [hflags, hselect, hfilter, hstart]
  simp [Argument.text, hprofile, hdataset]

/-! ## Splitting the command -/

/-- What a flag is: a word that starts with a hyphen. -/
structure IsFlag (flag : String) : Prop where
  word : Shell.IsWord flag.toList
  hyphen : ∃ s, flag.toList = '-' :: s

theorem isPlain_hyphen : Shell.IsPlain '-' := by decide

theorem tail_eq {as : List Argument} (h : ∀ a ∈ as, IsFlag a.flag) :
    ∃ rest, as.flatMap Argument.text ++ " --json".toList = ' ' :: '-' :: rest := by
  cases as with
  | nil => exact ⟨"-json".toList, rfl⟩
  | cons a as =>
      obtain ⟨s, hs⟩ := (h a List.mem_cons_self).hyphen
      rw [List.flatMap_cons, Argument.text, hs]
      exact ⟨_, rfl⟩

/-- The words of flags are read as they are iff all values are safe. -/
theorem splitFrom_arguments_iff {as : List Argument} (h : ∀ a ∈ as, IsFlag a.flag) {rest : Text}
    (hrest : as.flatMap Argument.text ++ " --json".toList = ' ' :: rest) :
    Shell.splitFrom .between rest =
        some ((as.flatMap fun a ↦ [a.flag.toList, a.value]) ++ ["--json".toList]) ↔
      ∀ a ∈ as, a.Safe := by
  induction as generalizing rest with
  | nil =>
      cases hrest
      exact iff_of_true (by decide +kernel) nofun
  | cons a as ih =>
      obtain ⟨hflag, hflags⟩ := List.forall_mem_cons.mp h
      obtain ⟨tail, htail⟩ := tail_eq hflags
      rw [List.flatMap_cons, List.append_assoc, htail, Argument.text, List.cons_append,
        List.cons_append, List.cons.injEq] at hrest
      obtain ⟨-, rfl⟩ := hrest
      rw [List.append_assoc, List.cons_append, List.flatMap_cons, List.cons_append,
        List.cons_append, List.cons_append, Shell.splitFrom_word_blank hflag.word,
        List.forall_mem_cons, ← ih hflags htail, Argument.Safe]
      cases a.quoted with
      | true => exact Shell.splitFrom_quoted_iff isPlain_hyphen
      | false => exact Shell.splitFrom_word_iff isPlain_hyphen

/-- The flags of the command. -/
def flagNames : List String :=
  ["--profile", "--dataset", "--entity", "--from", "--to", "--as-of", "--limit", "--select",
    "--filter"]

theorem isFlag_of_mem_flagNames : ∀ flag ∈ flagNames, IsFlag flag := by
  have hword : ∀ flag ∈ flagNames, Shell.IsWord flag.toList ∧ flag.toList.head? = some '-' := by
    simp only [flagNames, List.forall_mem_cons, List.not_mem_nil, false_imp_iff, implies_true,
      and_true, String.reduceToList]
    decide
  intro flag hmem
  obtain ⟨hisWord, hhead⟩ := hword flag hmem
  obtain ⟨s, hs⟩ := List.head?_eq_some_iff.mp hhead
  exact ⟨hisWord, s, hs⟩

theorem mem_flagNames (spec : DatasetQuerySpec) (profile : Text) :
    ∀ a ∈ spec.arguments profile, a.flag ∈ flagNames := by
  intro a ha
  unfold DatasetQuerySpec.arguments at ha
  simp only [List.mem_append, List.mem_flatMap] at ha
  rcases ha with ((ha | ⟨⟨flag, value⟩, hflag, ha⟩) | ha) | ha
  · rcases List.mem_cons.mp ha with rfl | ha
    · exact (by decide : "--profile" ∈ flagNames)
    · rw [List.mem_singleton.mp ha]
      exact (by decide : "--dataset" ∈ flagNames)
  · cases value with
    | none => cases ha
    | some value =>
        rw [List.mem_singleton.mp ha]
        have hnames : ∀ flag ∈ spec.flags.map Prod.fst, flag ∈ flagNames :=
          (by decide : ∀ flag ∈ ["--entity", "--from", "--to", "--as-of", "--limit"],
            flag ∈ flagNames)
        exact hnames flag (List.mem_map_of_mem hflag)
  · split_ifs at ha
    · cases ha
    · rw [List.mem_singleton.mp ha]
      exact (by decide : "--select" ∈ flagNames)
  · cases hfilter : spec.filter with
    | none =>
        rw [hfilter] at ha
        cases ha
    | some filter =>
        rw [hfilter] at ha
        rw [List.mem_singleton.mp ha]
        exact (by decide : "--filter" ∈ flagNames)

theorem isFlag_of_mem (spec : DatasetQuerySpec) (profile : Text) :
    ∀ a ∈ spec.arguments profile, IsFlag a.flag :=
  fun a ha ↦ isFlag_of_mem_flagNames _ (mem_flagNames spec profile a ha)

theorem isWord_program : Shell.IsWord "franken-snowflake".toList := by
  simp only [String.reduceToList]
  decide

theorem isWord_query : Shell.IsWord "query".toList := by
  simp only [String.reduceToList]
  decide

theorem isWord_run : Shell.IsWord "run".toList := by
  simp only [String.reduceToList]
  decide

/-- The command is split into its words iff all values are safe. -/
theorem split_runCommandFor_iff (spec : DatasetQuerySpec) (profile : Text) :
    Shell.split (runCommandFor spec profile) = some (spec.words profile) ↔
      ∀ a ∈ spec.arguments profile, a.Safe := by
  have hflags := isFlag_of_mem spec profile
  obtain ⟨tail, htail⟩ := tail_eq hflags
  have hstart : "franken-snowflake query run".toList = "franken-snowflake".toList ++
      ' ' :: ("query".toList ++ ' ' :: "run".toList) := rfl
  rw [runCommandFor_eq, htail, hstart, Shell.split, DatasetQuerySpec.words]
  rw [List.append_assoc, List.cons_append, List.append_assoc, List.cons_append,
    List.append_assoc, List.cons_append, List.cons_append, List.cons_append,
    Shell.splitFrom_word_blank isWord_program, Shell.splitFrom_word_blank isWord_query,
    Shell.splitFrom_word_blank isWord_run]
  exact splitFrom_arguments_iff hflags htail

/-! ## Selected columns -/

/-- A column name that survives a comma-separated list. -/
structure IsListed (name : Text) : Prop where
  nonempty : name ≠ []
  trimmed : Unicode.trim name = name
  comma : ',' ∉ name

theorem isListed_of_mem_parseSelect {raw name : Text} (h : name ∈ parseSelect (some raw)) :
    IsListed name := by
  obtain ⟨hmem, hnonempty⟩ := List.mem_filter.mp h
  obtain ⟨part, hpart, rfl⟩ := List.mem_map.mp hmem
  refine ⟨?_, Unicode.trim_trim part, fun hcomma ↦ ?_⟩
  · rintro hnil
    rw [hnil] at hnonempty
    cases hnonempty
  · exact Split.notMem_of_mem_splitOn hpart (Unicode.mem_of_mem_trim hcomma)

theorem parseSelect_intercalate {select : List Text} (hne : select ≠ [])
    (h : ∀ name ∈ select, IsListed name) :
    parseSelect (some ([','].intercalate select)) = select := by
  have htrim : select.map Unicode.trim = select := by
    conv_rhs => rw [← List.map_id select]
    exact List.map_congr_left fun name hname ↦ (h name hname).trimmed
  unfold parseSelect
  dsimp only [Option.elim]
  rw [List.splitOn_intercalate ',' (fun name hname ↦ (h name hname).comma) hne, htrim,
    List.filter_eq_self]
  intro name hname
  rw [Bool.not_eq_true', List.isEmpty_eq_false_iff]
  exact (h name hname).nonempty

/-- Columns are read back from the list iff every name survives it. -/
theorem parseSelect_intercalate_iff {select : List Text} (hne : select ≠ []) :
    parseSelect (some ([','].intercalate select)) = select ↔ ∀ name ∈ select, IsListed name := by
  constructor
  · intro h name hname
    rw [← h] at hname
    exact isListed_of_mem_parseSelect hname
  · exact parseSelect_intercalate hne

/-! ## The command is the query -/

variable {spec : DatasetQuerySpec} {profile : Text}

/-- The shell reads the command as one command of these words, and the columns are
those of its list. -/
structure SameQuery (spec : DatasetQuerySpec) (profile : Text) : Prop where
  words : Shell.split (runCommandFor spec profile) = some (spec.words profile)
  select : spec.select ≠ [] → parseSelect (some ([','].intercalate spec.select)) = spec.select

/-- A value that is not quoted needs no quotes, and one that is has none. -/
structure ShellSafe (spec : DatasetQuerySpec) (profile : Text) : Prop where
  profile : Shell.IsWord profile
  dataset : Shell.IsWord spec.datasetId
  flags : ∀ flag value, (flag, some value) ∈ spec.flags →
    if value.any Unicode.isWhitespace then '\'' ∉ value else Shell.IsWord value
  select : spec.select ≠ [] →
    Shell.IsWord ([','].intercalate spec.select) ∧ ∀ name ∈ spec.select, IsListed name
  filter : ∀ filter ∈ spec.filter, '\'' ∉ filter

theorem safe_arguments_iff :
    (∀ a ∈ spec.arguments profile, a.Safe) ↔
      (Shell.IsWord profile ∧ Shell.IsWord spec.datasetId) ∧
        (∀ flag value, (flag, some value) ∈ spec.flags →
          if value.any Unicode.isWhitespace then '\'' ∉ value else Shell.IsWord value) ∧
        (spec.select ≠ [] → Shell.IsWord ([','].intercalate spec.select)) ∧
        ∀ filter ∈ spec.filter, '\'' ∉ filter := by
  unfold DatasetQuerySpec.arguments
  rw [List.forall_mem_append, List.forall_mem_append, List.forall_mem_append, and_assoc, and_assoc]
  refine and_congr ?_ (and_congr ?_ (and_congr ?_ ?_))
  · rw [List.forall_mem_cons, List.forall_mem_singleton]
    rfl
  · constructor
    · intro h flag value hmem
      exact h _ (List.mem_flatMap.mpr ⟨_, hmem, List.mem_singleton.mpr rfl⟩)
    · intro h a ha
      obtain ⟨⟨flag, value⟩, hmem, ha⟩ := List.mem_flatMap.mp ha
      cases value with
      | none => cases ha
      | some value =>
          rw [List.mem_singleton.mp ha]
          exact h flag value hmem
  · by_cases hselect : spec.select = []
    · rw [if_pos hselect]
      exact iff_of_true nofun fun hne ↦ absurd hselect hne
    · rw [if_neg hselect, List.forall_mem_singleton]
      exact ⟨fun h _ ↦ h, fun h ↦ h hselect⟩
  · cases spec.filter with
    | none => exact iff_of_true nofun nofun
    | some filter =>
        dsimp only [Option.elim]
        rw [List.forall_mem_singleton]
        exact ⟨fun h filter' hfilter' ↦ Option.some.inj hfilter' ▸ h, fun h ↦ h filter rfl⟩

/-- The suggested command is the query iff its values are safe for the shell. -/
theorem runCommandFor_sameQuery_iff (spec : DatasetQuerySpec) (profile : Text) :
    SameQuery spec profile ↔ ShellSafe spec profile := by
  constructor
  · intro h
    obtain ⟨⟨hprofile, hdataset⟩, hflags, hselect, hfilter⟩ :=
      safe_arguments_iff.mp ((split_runCommandFor_iff spec profile).mp h.words)
    exact ⟨hprofile, hdataset, hflags,
      fun hne ↦ ⟨hselect hne, (parseSelect_intercalate_iff hne).mp (h.select hne)⟩, hfilter⟩
  · intro h
    refine ⟨(split_runCommandFor_iff spec profile).mpr (safe_arguments_iff.mpr ?_),
      fun hne ↦ (parseSelect_intercalate_iff hne).mpr (h.select hne).2⟩
    exact ⟨⟨h.profile, h.dataset⟩, h.flags, fun hne ↦ (h.select hne).1, h.filter⟩

/-- A second command in an entity. -/
theorem not_runCommandFor_sameQuery :
    ¬ ∀ (spec : DatasetQuerySpec) (profile : Text), SameQuery spec profile := by
  intro h
  have hwords := (h ⟨"orders".toList, some "7;reboot".toList, none, none, none, [], none, none⟩
    "prod".toList).words
  exact absurd hwords (by decide +kernel)

end FrankenSnowflake.DatasetMode
