import CommandSpec.CommandLine.Arguments

/-! Requests to generate, spelled out as arguments. Every flag stands with its value behind an
equals sign and the input behind a lone `--`, so that any text can be a value and any path the
input; the arguments are read back as the request. -/
namespace CommandSpec.CommandLine

/-- A flag, with its value if it takes one. -/
def Flag.spell (flag : Flag) (value : String) : String :=
  if flag.value = .none then "--" ++ flag.long else "--" ++ flag.long ++ "=" ++ value

/-- The flags that have a value, spelled out. -/
def spelledFlags (value : String → Option String) (flags : List Flag) : List String :=
  flags.filterMap fun flag => (value flag.long).map flag.spell

/-- Whether a value can stand behind a flag; a flag that takes none has an empty one. -/
def Flag.Fits (flag : Flag) (value : String) : Prop :=
  if flag.value = .none then value = "" else flag.value.accepts value = true

/-- A flag that its level finds by its name, whose name ends where the value starts. -/
structure Level.Has (level : Level) (flag : Flag) : Prop where
  found : level.flags.find? (·.long == flag.long) = some flag
  named : flag.long ≠ ""
  ends : '=' ∉ flag.long.toList

theorem generateLevel_has (flag : Flag) (h : flag ∈ generateLevel.flags) :
    generateLevel.Has flag := by
  have hall : ∀ flag ∈ generateLevel.flags,
      generateLevel.flags.find? (·.long == flag.long) = some flag ∧ flag.long ≠ "" ∧
        '=' ∉ flag.long.toList := by decide +kernel
  obtain ⟨hfound, hnamed, hends⟩ := hall flag h
  exact ⟨hfound, hnamed, hends⟩

/-- What stands behind the name of a spelled flag. -/
def Flag.ending (flag : Flag) (value : String) : List Char :=
  if flag.value = .none then [] else '=' :: value.toList

theorem Flag.spell_toList (flag : Flag) (value : String) :
    (flag.spell value).toList = '-' :: '-' :: (flag.long.toList ++ flag.ending value) := by
  unfold spell ending
  split <;> simp

/-- A name without an equals sign is split off at the first one. -/
theorem span_name (name : List Char) (ending : List Char) (hname : '=' ∉ name)
    (hending : ∀ c ∈ ending.head?, c = '=') :
    (name ++ ending).takeWhile (· != '=') = name ∧
      (name ++ ending).dropWhile (· != '=') = ending := by
  have hall : ∀ c ∈ name, (c != '=') = true := by
    intro c hc
    simp only [bne_iff_ne]
    rintro rfl
    exact hname hc
  rw [List.takeWhile_append_of_pos hall, List.dropWhile_append_of_pos hall]
  cases ending with
  | nil => simp
  | cons c rest => simp [hending c rfl]

namespace Given

theorem takeLong_spell (level : Level) (flag : Flag) (value : String) (g : Given)
    (hhas : level.Has flag) (hfits : flag.Fits value) (hnew : g.values.lookup flag.long = none)
    (hpending : g.pending = none) :
    g.takeLong level (flag.long.toList ++ flag.ending value) =
      .ok { g with values := (flag.long, value) :: g.values } := by
  have hput : g.put flag value = .ok { g with values := (flag.long, value) :: g.values } := by
    unfold put has
    rw [if_neg (by simp [hnew]), ← hpending]
  have hsplit := span_name flag.long.toList (flag.ending value) hhas.ends
    (by unfold Flag.ending; split <;> simp)
  unfold takeLong
  simp only [hsplit, String.ofList_toList, hhas.found]
  unfold Flag.Fits at hfits
  unfold Flag.ending
  by_cases hkind : flag.value = .none
  · rw [if_pos hkind] at hfits ⊢
    obtain rfl := hfits
    simpa [hkind] using hput
  · rw [if_neg hkind] at hfits ⊢
    simpa [putValue, hfits] using hput

/-- One spelled flag is read into its value. -/
theorem take_spell (level : Level) (flag : Flag) (value : String) (g : Given)
    (rest : List String) (hhas : level.Has flag) (hfits : flag.Fits value)
    (hnew : g.values.lookup flag.long = none) (hpending : g.pending = none) :
    take level g (flag.spell value :: rest) =
      take level { g with values := (flag.long, value) :: g.values } rest := by
  have hlong := takeLong_spell level flag value g hhas hfits hnew hpending
  obtain ⟨c, cs, hcs⟩ : ∃ c cs, flag.long.toList ++ flag.ending value = c :: cs := by
    cases hchars : flag.long.toList with
    | nil => exact absurd (String.toList_eq_nil_iff.mp hchars) hhas.named
    | cons c cs => exact ⟨c, _, rfl⟩
  rw [hcs, hpending] at hlong
  rw [take, hpending, flag.spell_toList, hcs]
  simp only [hlong]
  rfl

/-- Spelled flags are read into their values, and nothing else is. -/
theorem take_spelledFlags (level : Level) (value : String → Option String) (flags : List Flag)
    (g : Given) (rest : List String) (hhas : ∀ flag ∈ flags, level.Has flag)
    (hfits : ∀ flag ∈ flags, ∀ v ∈ value flag.long, flag.Fits v)
    (hnew : ∀ flag ∈ flags, g.values.lookup flag.long = none)
    (hdistinct : (flags.map Flag.long).Nodup) (hpending : g.pending = none) :
    ∃ values, take level g (spelledFlags value flags ++ rest) = take level { g with values } rest ∧
      (∀ flag ∈ flags, values.lookup flag.long = value flag.long) ∧
      ∀ long ∉ flags.map Flag.long, values.lookup long = g.values.lookup long := by
  induction flags generalizing g with
  | nil => exact ⟨g.values, rfl, by simp, fun _ _ => rfl⟩
  | cons flag flags ih =>
    obtain ⟨hflag, hdistinct⟩ := List.nodup_cons.mp hdistinct
    have htail {P : Flag → Prop} (h : ∀ other ∈ flag :: flags, P other) :
        ∀ other ∈ flags, P other := fun other hother => h other (List.mem_cons_of_mem _ hother)
    cases hvalue : value flag.long with
    | none =>
      obtain ⟨values, htake, hin, hout⟩ :=
        ih g (htail hhas) (htail hfits) (htail hnew) hdistinct hpending
      refine ⟨values, ?_, ?_, ?_⟩
      · simpa [spelledFlags, hvalue] using htake
      · rintro other (_ | ⟨_, hother⟩)
        · rw [hout flag.long hflag, hnew flag (List.mem_cons_self ..), hvalue]
        · exact hin other hother
      · intro long hlong
        exact hout long fun h => hlong (List.mem_cons_of_mem _ h)
    | some v =>
      have hother : ∀ other ∈ flags, other.long ≠ flag.long := by
        intro other hother heq
        exact hflag (heq ▸ List.mem_map_of_mem hother)
      obtain ⟨values, htake, hin, hout⟩ :=
        ih { g with values := (flag.long, v) :: g.values } (htail hhas) (htail hfits)
          (fun other hmem => by
            rw [List.lookup_cons, beq_false_of_ne (hother other hmem)]
            exact htail hnew other hmem) hdistinct hpending
      have hstep := take_spell level flag v g (spelledFlags value flags ++ rest)
        (hhas flag (List.mem_cons_self ..)) (hfits flag (List.mem_cons_self ..) v hvalue)
        (hnew flag (List.mem_cons_self ..)) hpending
      refine ⟨values, ?_, ?_, ?_⟩
      · rw [← htake, ← hstep]
        simp [spelledFlags, hvalue]
      · rintro other (_ | ⟨_, hmem⟩)
        · rw [hout flag.long hflag, List.lookup_cons, beq_self_eq_true, hvalue]
        · exact hin other hmem
      · intro long hlong
        have hne : long ≠ flag.long := fun h => hlong (h ▸ List.mem_cons_self ..)
        have hrest := hout long fun h => hlong (List.mem_cons_of_mem _ h)
        rw [hrest, List.lookup_cons, beq_false_of_ne hne]

end Given

/-! ## Requests to generate -/

namespace GenerateRequest

/-- What a request needs to stand in arguments: a path is not empty. -/
structure HasPaths (r : GenerateRequest) : Prop where
  input : r.input ≠ ""
  output : r.output ≠ some ""
  configFile : r.configFile ≠ some ""

/-- The value that a request gives a flag, by the flag's name. -/
def valueOf (r : GenerateRequest) : String → Option String
  | "output" => r.output
  | "config" => r.configFile
  | "module-name" => r.flags.moduleName
  | "trait-name" => r.flags.traitName
  | "struct-name" => r.flags.structName
  | "global-options-name" => r.flags.globalOptionsName
  | "runtime-crate" => r.flags.runtimeCrate
  | "command-table" => if r.flags.commandTable then some "" else none
  | _ => none

def arguments (r : GenerateRequest) : List String :=
  "generate" :: (spelledFlags r.valueOf generateLevel.flags ++ ["--", r.input])

theorem valueOf_fits (r : GenerateRequest) (h : r.HasPaths) :
    ∀ flag ∈ generateLevel.flags, ∀ v ∈ r.valueOf flag.long, flag.Fits v := by
  have hpath (path : Option String) (hne : path ≠ some "") (v : String) (hv : v ∈ path) :
      FlagValue.path.accepts v = true := by
    have hempty : v ≠ "" := by
      rintro rfl
      exact hne hv
    simp [FlagValue.accepts, hempty]
  intro flag hflag v hv
  simp only [generateLevel, List.mem_cons, List.not_mem_nil, or_false] at hflag
  rcases hflag with rfl | rfl | rfl | rfl | rfl | rfl | rfl | rfl | rfl
  · cases hv
  · exact hpath r.output h.output v hv
  · exact hpath r.configFile h.configFile v hv
  iterate 5 rfl
  · by_cases htable : r.flags.commandTable = true
    · have hempty : some "" = some v := by simpa [valueOf, htable] using hv
      exact (Option.some.inj hempty).symm
    · simp [valueOf, htable] at hv

/-- The arguments of a request are read back as the request, without the log. -/
theorem ofArguments_arguments (r : GenerateRequest) (h : r.HasPaths) :
    Invocation.ofArguments r.arguments = .ok { request := .generate r } := by
  obtain ⟨values, htake, hvalues, -⟩ := Given.take_spelledFlags generateLevel r.valueOf
    generateLevel.flags {} ["--", r.input] generateLevel_has (r.valueOf_fits h)
    (fun _ _ => rfl) (by decide) rfl
  have hinput : Given.take generateLevel { values } ["--", r.input] =
      .ok { values, input := r.input } := by
    have hput : Given.putInput { values } r.input = .ok { values, input := r.input } := by
      simp [Given.putInput, h.input]
    show [r.input].foldlM Given.putInput { values } = _
    simp [hput]
  have hlookup (long : String) (hlong : long ∈ generateLevel.flags.map Flag.long) :
      values.lookup long = r.valueOf long := by
    obtain ⟨flag, hflag, rfl⟩ := List.mem_map.mp hlong
    exact hvalues flag hflag
  have hread : Invocation.ofArguments r.arguments = (parseSubcommand "generate"
      (spelledFlags r.valueOf generateLevel.flags ++ ["--", r.input])).map fun invocation =>
        { invocation with verbose := invocation.verbose || false } := by
    rfl
  have hlevel : level? "generate" = some generateLevel := by rfl
  have hrequest : Given.request? { values, input := r.input } "generate" = some (.generate r) := by
    have htable : (if r.flags.commandTable = true then some "" else none).isSome =
        r.flags.commandTable := by cases r.flags.commandTable <;> rfl
    simp [Given.request?, Given.has, hlookup, generateLevel, valueOf, htable]
  have hverbose : Given.has { values, input := r.input } verboseFlag.long = false := by
    rw [Given.has, hlookup _ (by decide)]
    rfl
  rw [hread, parseSubcommand, hlevel]
  simp only [htake, hinput, bind, Except.bind, hrequest, hverbose]
  rfl

end GenerateRequest
end CommandSpec.CommandLine
