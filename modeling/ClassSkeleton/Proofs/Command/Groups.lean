import ClassSkeleton.Command.Arguments
import Mathlib.Data.List.Basic
import Mathlib.Logic.ExistsUnique

/-!
The arguments of the command as groups: a flag together with the value that it takes. Every list of
arguments is read in one way as groups and what stands behind the last of them, and what is read is
decided by the values of each flag. The last value of a root or of the address counts, the pieces of
all values of `--only` do, and of the other flags whether they occur. So the order counts only
between groups of one flag.
-/
namespace ClassSkeleton.Arguments

def Setting.spellings : Setting → List Text
  | .out => ["-o".toList, "--out".toList]
  | .cache => ["--cache".toList]
  | .baseUrl => ["--base-url".toList]
  | .only => ["--only".toList]

def Switch.spellings : Switch → List Text
  | .parseOnly => ["--parse-only".toList]
  | .list => ["--list".toList]
  | .help => ["-h".toList, "--help".toList]

/-- A flag as it is written, with the value that it takes. -/
inductive Group where
  | valued (setting : Setting) (flag value : Text) (spelled : flag ∈ setting.spellings)
  | bare (switch : Switch) (flag : Text) (spelled : flag ∈ switch.spellings)

/-- What stands behind the last group. -/
inductive Ending where
  | nothing
  | lacking (setting : Setting) (flag : Text) (spelled : flag ∈ setting.spellings)
  | unknown (argument : Text) (rest : List Text)
      (notSetting : ∀ setting : Setting, argument ∉ setting.spellings)
      (notSwitch : ∀ switch : Switch, argument ∉ switch.spellings)

/-- A list of arguments, taken apart. -/
structure Reading where
  groups : List Group
  ending : Ending

section Spellings

variable {argument : Text}

theorem setting?_eq_some_iff {setting : Setting} :
    setting? argument = some setting ↔ argument ∈ setting.spellings := by
  constructor
  · intro h
    rw [setting?] at h
    split_ifs at h with hout hcache hbase honly <;> cases h
    · simpa [Setting.spellings] using hout
    · simpa [Setting.spellings] using hcache
    · simpa [Setting.spellings] using hbase
    · simpa [Setting.spellings] using honly
  · intro h
    cases setting <;> simp only [Setting.spellings, List.mem_cons, List.not_mem_nil, or_false] at h
    case out => rcases h with rfl | rfl <;> rfl
    all_goals
      subst h
      rfl

theorem switch?_eq_some_iff {switch : Switch} :
    switch? argument = some switch ↔ argument ∈ switch.spellings := by
  constructor
  · intro h
    rw [switch?] at h
    split_ifs at h with hparse hlist hhelp <;> cases h
    · simpa [Switch.spellings] using hparse
    · simpa [Switch.spellings] using hlist
    · simpa [Switch.spellings] using hhelp
  · intro h
    cases switch <;> simp only [Switch.spellings, List.mem_cons, List.not_mem_nil, or_false] at h
    case help => rcases h with rfl | rfl <;> rfl
    all_goals
      subst h
      rfl

theorem setting?_eq_none_iff :
    setting? argument = none ↔ ∀ setting : Setting, argument ∉ setting.spellings := by
  rw [Option.eq_none_iff_forall_ne_some]
  simp only [ne_eq, setting?_eq_some_iff]

theorem switch?_eq_none_iff :
    switch? argument = none ↔ ∀ switch : Switch, argument ∉ switch.spellings := by
  rw [Option.eq_none_iff_forall_ne_some]
  simp only [ne_eq, switch?_eq_some_iff]

theorem setting?_switch {switch : Switch} (h : argument ∈ switch.spellings) :
    setting? argument = none := by
  cases switch <;> simp only [Switch.spellings, List.mem_cons, List.not_mem_nil, or_false] at h
  case help => rcases h with rfl | rfl <;> rfl
  all_goals
    subst h
    rfl

end Spellings

namespace Group

def arguments : Group → List Text
  | .valued _ flag value _ => [flag, value]
  | .bare _ flag _ => [flag]

/-- The flag of a group, however it is spelled. -/
def kind : Group → Setting ⊕ Switch
  | .valued setting _ _ _ => .inl setting
  | .bare switch _ _ => .inr switch

def valueOf? (setting : Setting) : Group → Option Text
  | .valued other _ value _ => if other = setting then some value else none
  | .bare _ _ _ => none

end Group

def Ending.arguments : Ending → List Text
  | .nothing => []
  | .lacking _ flag _ => [flag]
  | .unknown argument rest _ _ => argument :: rest

/-- The values given for a flag, in their order. -/
def values (setting : Setting) (groups : List Group) : List Text :=
  groups.filterMap (Group.valueOf? setting)

/-- A flag that stands alone occurs. -/
def isOn (switch : Switch) (groups : List Group) : Bool :=
  groups.any fun group => group.kind = .inr switch

@[simp] theorem values_nil (setting : Setting) : values setting [] = [] := rfl

@[simp] theorem values_valued (setting other : Setting) (flag value : Text)
    (spelled : flag ∈ other.spellings) (groups : List Group) :
    values setting (.valued other flag value spelled :: groups) =
      if other = setting then value :: values setting groups else values setting groups := by
  by_cases hother : other = setting <;> simp [values, Group.valueOf?, hother]

@[simp] theorem values_bare (setting : Setting) (switch : Switch) (flag : Text)
    (spelled : flag ∈ switch.spellings) (groups : List Group) :
    values setting (.bare switch flag spelled :: groups) = values setting groups := by
  simp only [values]
  exact List.filterMap_cons_none rfl

@[simp] theorem isOn_nil (switch : Switch) : isOn switch [] = false := rfl

@[simp] theorem isOn_cons (switch : Switch) (group : Group) (groups : List Group) :
    isOn switch (group :: groups) = (decide (group.kind = .inr switch) || isOn switch groups) := rfl

/-- The options that groups come to. -/
def optionsOf (groups : List Group) : Options :=
  let outRoot := ((values .out groups).getLast?.map Path.ofTyped).getD Options.defaultRoot
  { baseUrl := ((values .baseUrl groups).getLast?.map Choices.closeUrl).getD Options.defaultBaseUrl
    indexPage := Options.defaultIndexPage
    only := (values .only groups).flatMap Text.commaPieces
    parseOnly := isOn .parseOnly groups
    cacheRoot := ((values .cache groups).getLast?.map Path.ofTyped).getD outRoot
    outRoot }

namespace Reading

def arguments (reading : Reading) : List Text :=
  reading.groups.flatMap Group.arguments ++ reading.ending.arguments

/-- What a list of arguments comes to. -/
def outcome (reading : Reading) : Except UsageCause Mode :=
  if isOn .help reading.groups then .ok .help
  else
    match reading.ending with
    | .nothing =>
      .ok (if isOn .list reading.groups then .list (optionsOf reading.groups)
        else .generate (optionsOf reading.groups))
    | .lacking _ flag _ => .error (.missingValue flag)
    | .unknown argument _ _ _ => .error (.unknownArgument argument)

def push (group : Group) (reading : Reading) : Reading := ⟨group :: reading.groups, reading.ending⟩

theorem arguments_push (group : Group) (reading : Reading) :
    (push group reading).arguments = group.arguments ++ reading.arguments := by
  simp [arguments, push]

end Reading

def regroup : List Text → Reading
  | [] => ⟨[], .nothing⟩
  | argument :: rest =>
    match hsetting : setting? argument with
    | some setting =>
      match rest with
      | [] => ⟨[], .lacking setting argument (setting?_eq_some_iff.mp hsetting)⟩
      | value :: rest =>
        (regroup rest).push (.valued setting argument value (setting?_eq_some_iff.mp hsetting))
    | none =>
      match hswitch : switch? argument with
      | some switch => (regroup rest).push (.bare switch argument (switch?_eq_some_iff.mp hswitch))
      | none => ⟨[], .unknown argument rest (setting?_eq_none_iff.mp hsetting)
          (switch?_eq_none_iff.mp hswitch)⟩

theorem arguments_regroup (arguments : List Text) : (regroup arguments).arguments = arguments := by
  fun_induction regroup arguments with
  | case1 => rfl
  | case2 => rfl
  | case3 argument setting hsetting value rest ih =>
    rw [Reading.arguments_push, ih]
    rfl
  | case4 argument rest hsetting switch hswitch ih =>
    rw [Reading.arguments_push, ih]
    rfl
  | case5 => rfl

theorem regroup_setting {setting : Setting} {flag : Text} (spelled : flag ∈ setting.spellings)
    (rest : List Text) :
    regroup (flag :: rest) =
      match rest with
      | [] => ⟨[], .lacking setting flag spelled⟩
      | value :: rest => (regroup rest).push (.valued setting flag value spelled) := by
  have hflag := setting?_eq_some_iff.mpr spelled
  rw [regroup]
  split
  · rename_i other hother
    obtain rfl : setting = other := Option.some.inj (hflag.symm.trans hother)
    rfl
  · rename_i hnone
    exact absurd (hflag.symm.trans hnone) (by simp)

theorem regroup_group (group : Group) (rest : List Text) :
    regroup (group.arguments ++ rest) = (regroup rest).push group := by
  cases group with
  | valued setting flag value spelled => exact regroup_setting spelled (value :: rest)
  | bare switch flag spelled =>
    have hflag := switch?_eq_some_iff.mpr spelled
    simp only [Group.arguments, List.cons_append, List.nil_append]
    rw [regroup]
    split
    · rename_i setting hsome
      exact absurd ((setting?_switch spelled).symm.trans hsome) (by simp)
    · split
      · rename_i other hother
        obtain rfl : switch = other := Option.some.inj (hflag.symm.trans hother)
        rfl
      · rename_i hnone
        exact absurd (hflag.symm.trans hnone) (by simp)

theorem regroup_ending (ending : Ending) : regroup ending.arguments = ⟨[], ending⟩ := by
  cases ending with
  | nothing => rfl
  | lacking setting flag spelled => exact regroup_setting spelled []
  | unknown argument rest notSetting notSwitch =>
    rw [Ending.arguments, regroup]
    split
    · rename_i setting hsome
      exact absurd (setting?_eq_some_iff.mp hsome) (notSetting setting)
    · split
      · rename_i switch hsome
        exact absurd (switch?_eq_some_iff.mp hsome) (notSwitch switch)
      · rfl

/-- A list of arguments can be taken apart in one way only. -/
theorem regroup_arguments (reading : Reading) : regroup reading.arguments = reading := by
  obtain ⟨groups, ending⟩ := reading
  induction groups with
  | nil => exact regroup_ending ending
  | cons group groups ih =>
    have hpush := Reading.arguments_push group ⟨groups, ending⟩
    have hgroup := regroup_group group (Reading.arguments ⟨groups, ending⟩)
    rw [ih, ← hpush] at hgroup
    exact hgroup

namespace Choices

def follow (choices : Choices) : Group → Choices
  | .valued setting _ value _ => choices.set value setting
  | .bare .parseOnly _ _ => { choices with parseOnly := true }
  | .bare .list _ _ => { choices with list := true }
  | .bare .help _ _ => choices

/-- What has been read behind all of several groups. -/
def after (choices : Choices) (groups : List Group) : Choices where
  outRoot := ((values .out groups).getLast?.map Path.ofTyped).getD choices.outRoot
  cacheRoot := ((values .cache groups).getLast?.map fun value => some (Path.ofTyped value)).getD
    choices.cacheRoot
  baseUrl := ((values .baseUrl groups).getLast?.map closeUrl).getD choices.baseUrl
  only := choices.only ++ (values .only groups).flatMap Text.commaPieces
  parseOnly := choices.parseOnly || isOn .parseOnly groups
  list := choices.list || isOn .list groups

theorem getD_getLast?_cons {α : Type} (f : Text → α) (first : Text) (rest : List Text)
    (before : α) :
    ((first :: rest).getLast?.map f).getD before = (rest.getLast?.map f).getD (f first) := by
  rw [List.getLast?_cons]
  cases rest.getLast? <;> rfl

theorem after_cons (choices : Choices) (group : Group) (groups : List Group) :
    choices.after (group :: groups) = (choices.follow group).after groups := by
  rcases group with ⟨setting, flag, value, spelled⟩ | ⟨switch, flag, spelled⟩
  · cases setting <;> simp [after, follow, set, Group.kind, getD_getLast?_cons]
  · cases switch <;> simp [after, follow, Group.kind]

theorem foldl_follow (choices : Choices) (groups : List Group) :
    groups.foldl follow choices = choices.after groups := by
  induction groups generalizing choices with
  | nil => simp [after]
  | cons group groups ih => rw [List.foldl_cons, ih, after_cons]

theorem mode_after (groups : List Group) :
    (start.after groups).mode =
      if isOn .list groups then .list (optionsOf groups) else .generate (optionsOf groups) := by
  have hoptions : (start.after groups).options = optionsOf groups := by
    simp only [options, after, optionsOf]
    cases (values .cache groups).getLast? <;> simp [start]
  rw [mode, hoptions, after]
  simp [start]

end Choices

theorem readFrom_group (choices : Choices) (group : Group) (rest : List Text) :
    readFrom choices (group.arguments ++ rest) =
      if group.kind = .inr .help then .ok .help else readFrom (choices.follow group) rest := by
  rcases group with ⟨setting, flag, value, spelled⟩ | ⟨switch, flag, spelled⟩
  · have hflag := setting?_eq_some_iff.mpr spelled
    simp [readFrom, Group.arguments, Group.kind, hflag, Choices.follow]
  · have hflag := switch?_eq_some_iff.mpr spelled
    cases switch <;>
      simp [readFrom, Group.arguments, Group.kind, setting?_switch spelled, hflag, Choices.follow]

/-- Groups are followed one after the other, up to the first that asks for help. -/
theorem readFrom_groups (choices : Choices) (groups : List Group) (rest : List Text) :
    readFrom choices (groups.flatMap Group.arguments ++ rest) =
      if isOn .help groups then .ok .help
      else readFrom (groups.foldl Choices.follow choices) rest := by
  induction groups generalizing choices with
  | nil => rfl
  | cons group groups ih =>
    rw [List.flatMap_cons, List.append_assoc, readFrom_group, ih, List.foldl_cons, isOn_cons]
    by_cases hhelp : group.kind = .inr .help <;> simp [hhelp]

theorem read_arguments (reading : Reading) : read reading.arguments = reading.outcome := by
  obtain ⟨groups, ending⟩ := reading
  rw [read, Reading.arguments, readFrom_groups, Reading.outcome, Choices.foldl_follow]
  cases ending with
  | nothing => rw [← Choices.mode_after]; rfl
  | lacking setting flag spelled =>
    simp only [Ending.arguments, readFrom, setting?_eq_some_iff.mpr spelled]
  | unknown argument rest notSetting notSwitch =>
    simp only [Ending.arguments, readFrom, setting?_eq_none_iff.mpr notSetting,
      switch?_eq_none_iff.mpr notSwitch]

theorem getLast?_closeUrl (url : Text) : (Choices.closeUrl url).getLast? = some '/' := by
  rw [Choices.closeUrl]
  split
  · rename_i hclosed
    obtain ⟨front, rfl⟩ := List.isSuffixOf_iff_suffix.mp hclosed
    simp
  · simp

theorem getLast?_baseUrl (groups : List Group) :
    (optionsOf groups).baseUrl.getLast? = some '/' := by
  simp only [optionsOf]
  cases (values .baseUrl groups).getLast? with
  | none => rfl
  | some url => exact getLast?_closeUrl url

/-- The groups of each flag are the same, in the same order. -/
def SameByFlag (groups other : List Group) : Prop :=
  ∀ kind : Setting ⊕ Switch,
    (groups.filter fun group => group.kind = kind) = other.filter fun group => group.kind = kind

theorem values_filter (setting : Setting) (groups : List Group) :
    values setting (groups.filter fun group => group.kind = .inl setting) =
      values setting groups := by
  rw [values, values, List.filterMap_filter]
  apply List.filterMap_congr
  rintro (⟨other, flag, value, spelled⟩ | ⟨switch, flag, spelled⟩) -
  · by_cases hother : other = setting <;> simp [Group.kind, Group.valueOf?, hother]
  · simp [Group.kind, Group.valueOf?]

theorem isOn_filter (switch : Switch) (groups : List Group) :
    isOn switch (groups.filter fun group => group.kind = .inr switch) = isOn switch groups := by
  rw [isOn, isOn, List.any_filter]
  simp

theorem SameByFlag.outcome_eq {groups other : List Group} (h : SameByFlag groups other)
    (ending : Ending) : Reading.outcome ⟨groups, ending⟩ = Reading.outcome ⟨other, ending⟩ := by
  have hvalues : ∀ setting, values setting groups = values setting other := fun setting => by
    rw [← values_filter, h, values_filter]
  have hisOn : ∀ switch, isOn switch groups = isOn switch other := fun switch => by
    rw [← isOn_filter, h, isOn_filter]
  simp only [Reading.outcome, optionsOf, hvalues, hisOn]

/-- Every list of arguments falls into groups in one way, and these decide what it is read as. The
address always ends in a slash, and groups of different flags may change places. -/
theorem read_grouped :
    (∀ arguments : List Text, ∃! reading : Reading, reading.arguments = arguments) ∧
      (∀ reading : Reading, read reading.arguments = reading.outcome) ∧
      (∀ groups, (optionsOf groups).baseUrl.getLast? = some '/') ∧
      ∀ groups other ending, SameByFlag groups other →
        read (Reading.arguments ⟨groups, ending⟩) = read (Reading.arguments ⟨other, ending⟩) := by
  refine ⟨fun arguments => ⟨regroup arguments, arguments_regroup arguments, ?_⟩, read_arguments,
    getLast?_baseUrl, ?_⟩
  · rintro reading rfl
    exact (regroup_arguments reading).symm
  · intro groups other ending h
    rw [read_arguments, read_arguments, h.outcome_eq]

/-- A value that looks like a flag, both spellings of one flag, and a filter given twice. -/
theorem read_grouped_permuted :
    let out : Group := .valued .out "--out".toList "--list".toList (by decide)
    let last : Group := .valued .out "-o".toList " gen ".toList (by decide)
    let cache : Group := .valued .cache "--cache".toList "pages".toList (by decide)
    let base : Group := .valued .baseUrl "--base-url".toList "http://local/api".toList (by decide)
    let only : Group := .valued .only "--only".toList "java.lang., ,java.util.".toList (by decide)
    let more : Group := .valued .only "--only".toList "javax.".toList (by decide)
    let parse : Group := .bare .parseOnly "--parse-only".toList (by decide)
    SameByFlag [out, only, last, cache, more, base, parse]
        [parse, only, cache, more, out, base, last] ∧
      read (Reading.arguments ⟨[parse, only, cache, more, out, base, last], .nothing⟩) =
        .ok (.generate ⟨"http://local/api/".toList, Options.defaultIndexPage,
          ["java.lang.".toList, "java.util.".toList, "javax.".toList], true, ⟨"pages".toList⟩,
          ⟨"gen".toList⟩⟩) := by
  intro out last cache base only more parse
  have hsame : SameByFlag [out, only, last, cache, more, base, parse]
      [parse, only, cache, more, out, base, last] := by
    rintro (setting | switch)
    · cases setting <;> rfl
    · cases switch <;> rfl
  refine ⟨hsame, ?_⟩
  rw [← read_grouped.2.2.2 _ _ .nothing hsame]
  decide +kernel

end ClassSkeleton.Arguments
