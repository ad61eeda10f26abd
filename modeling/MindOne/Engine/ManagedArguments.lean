import MindOne.Lib.OptionScans

/-!
# The managed command line of the engine

The managed options of llama.cpp stand on both sides of the additional arguments. The
deny-list looks at every additional argument by itself, whereas the engine reads its
command line by position: an option of the additional arguments that still waits for
a value takes the managed option behind it, and an option that is not denied can
write a managed setting again.
-/

namespace MindOne.Engine.LlamaArguments

open OptionScans

inductive ServeError where
  | incompatible (message : String)
  deriving DecidableEq, Repr

def managedShareMaxConcurrent : UInt16 := 3

def managedLlamaParallelSlots : UInt16 := managedShareMaxConcurrent + 1

def llamaLogDisableArg : String := "--log-disable"

section Overrides

def dashed (name : String) : String :=
  String.ofList (name.toList.map fun c => if c = '_' then '-' else c)

/-- What stands before the first equals sign, with dashes. -/
def normalizedName (argument : String) : String :=
  dashed (String.ofList (argument.toList.takeWhile (· ≠ '=')))

def startsWith (text start : String) : Bool := start.toList.isPrefixOf text.toList

def isLlamaLoggingOverride (argument : String) : Bool :=
  let normalized := normalizedName argument
  normalized == "-v" || normalized == "-lv" || startsWith normalized "--log-" ||
    startsWith normalized "--no-log-" || startsWith normalized "--verbose" ||
    startsWith normalized "--verbosity"

def isLlamaManagedRuntimeOverride (argument : String) : Bool :=
  isLlamaLoggingOverride argument ||
    ["-np", "--parallel", "-kvu", "--kv-unified", "-no-kvu", "--no-kv-unified", "--slots",
      "--no-slots", "--cache-prompt", "--no-cache-prompt", "--slot-save-path", "-dev",
      "--device"].contains (normalizedName argument)

def isLlamaCpuPolicyOverride (argument : String) : Bool :=
  ["-ngl", "--gpu-layers", "--n-gpu-layers", "-kvo", "-nkvo", "--kv-offload", "--no-kv-offload",
    "--op-offload", "--no-op-offload"].contains (normalizedName argument)

end Overrides

section Arguments
variable (modelPath : String) (port : UInt16) (slotSavePath : String) (effectiveCpuOnly : Bool)

/-- The managed options before the additional arguments. -/
def leadingArgs : List String :=
  ["--model", modelPath, "--host", "127.0.0.1", "--port", toString port.toNat, "--metrics",
    "--parallel", toString managedLlamaParallelSlots.toNat, "--kv-unified", "--slots",
    "--slot-save-path", slotSavePath, "--no-cache-prompt"]

/-- The managed options behind the additional arguments. -/
def trailingArgs : List String :=
  (if effectiveCpuOnly then
    ["--device", "none", "--n-gpu-layers", "0", "--no-kv-offload", "--no-op-offload"]
  else []) ++ [llamaLogDisableArg]

/-- The path arguments are the texts that `to_string_lossy` gives. -/
def buildManagedLlamaArgs (macos : Bool) (modelPath : String) (port : UInt16)
    (slotSavePath : String) (cpuOnly : Bool) (additionalArgs : List String) :
    Except ServeError (List String) :=
  let effectiveCpuOnly := cpuOnly || macos
  match additionalArgs.find? fun argument => isLlamaManagedRuntimeOverride argument ||
      (effectiveCpuOnly && isLlamaCpuPolicyOverride argument) with
  | some argument => .error (.incompatible
      ("高级配置不得覆盖受管 llama.cpp 日志、请求后 KV 清理或 CPU-only 参数：" ++ argument))
  | none => .ok (leadingArgs modelPath port slotSavePath ++ additionalArgs ++
      trailingArgs effectiveCpuOnly)

end Arguments

section Parser

inductive Setting where
  | model | host | port | metrics | parallel | kvUnified | slots | slotSavePath | cachePrompt
  | device | gpuLayers | kvOffload | opOffload | logging
  | other (name : String)
  deriving DecidableEq, Repr

/-- The options of an engine by their names with dashes. -/
abbrev OptionTable := Table String Setting String

/-- Where an option is expected, the engine maps underscores to dashes. -/
def options (table : OptionTable) : OptionTable := fun token => table (dashed token)

/-- The managed flags do what their names say. -/
structure KnowsManaged (table : OptionTable) : Prop where
  model : Takes table "--model" .model
  host : Takes table "--host" .host
  port : Takes table "--port" .port
  metrics : Switches table "--metrics" .metrics "on"
  parallel : Takes table "--parallel" .parallel
  kvUnified : Switches table "--kv-unified" .kvUnified "on"
  slots : Switches table "--slots" .slots "on"
  slotSavePath : Takes table "--slot-save-path" .slotSavePath
  cachePrompt : Switches table "--no-cache-prompt" .cachePrompt "off"
  device : Takes table "--device" .device
  gpuLayers : Takes table "--n-gpu-layers" .gpuLayers
  kvOffload : Switches table "--no-kv-offload" .kvOffload "off"
  opOffload : Switches table "--no-op-offload" .opOffload "off"
  logging : Switches table "--log-disable" .logging "off"

end Parser

section Managed
variable (modelPath : String) (port : UInt16) (slotSavePath : String) (effectiveCpuOnly : Bool)

/-- The managed settings whose options stand before the additional arguments. -/
def leadingValue : Setting → Option String
  | .model => some modelPath
  | .host => some "127.0.0.1"
  | .port => some (toString port.toNat)
  | .parallel => some "4"
  | .kvUnified => some "on"
  | .slots => some "on"
  | .slotSavePath => some slotSavePath
  | .cachePrompt => some "off"
  | _ => none

/-- The managed settings whose options stand behind them. -/
def trailingValue : Setting → Option String
  | .device => if effectiveCpuOnly then some "none" else none
  | .gpuLayers => if effectiveCpuOnly then some "0" else none
  | .kvOffload => if effectiveCpuOnly then some "off" else none
  | .opOffload => if effectiveCpuOnly then some "off" else none
  | .logging => some "off"
  | _ => none

/-- A configuration with all of the managed values. -/
def Managed (writes : List (Setting × String)) : Prop :=
  (∀ setting value, leadingValue modelPath port slotSavePath setting = some value →
    last writes setting = some value) ∧
  ∀ setting value, trailingValue effectiveCpuOnly setting = some value →
    last writes setting = some value

/-- Writes that leave no setting of the leading options at another value. -/
def Spares (writes : List (Setting × String)) : Prop :=
  ∀ setting value, leadingValue modelPath port slotSavePath setting = some value →
    ∀ written, last writes setting = some written → written = value

/-- Writes that leave the settings of the trailing options at their managed values. -/
def Covers (writes : List (Setting × String)) : Prop :=
  ∀ setting value, trailingValue effectiveCpuOnly setting = some value →
    last writes setting = some value

/-- The additional arguments are complete options and leave the leading settings alone; or
their last option takes managed tokens as its values, but what was written otherwise makes up
for it. -/
def Undisturbed (table : OptionTable) (additionalArgs : List String) : Prop :=
  ∃ own, readAll (options table) .start additionalArgs = some own ∧
    ((own.pending = none ∧ Spares modelPath port slotSavePath own.writes) ∨
      (own.pending ≠ none ∧ ∃ behind,
        readAll (options table) ⟨[], own.pending⟩ (trailingArgs effectiveCpuOnly) = some behind ∧
        Spares modelPath port slotSavePath (own.writes ++ behind.writes) ∧
        Covers effectiveCpuOnly (own.writes ++ behind.writes)))

end Managed

section Reading
variable {table : OptionTable} {modelPath : String} {port : UInt16} {slotSavePath : String}
  {effectiveCpuOnly : Bool} {setting : Setting} {value : String}

theorem takes_options {option : String} (hname : dashed option = option)
    (h : Takes table option setting) : Takes (options table) option setting := by
  rw [← hname] at h
  rw [Takes, options]
  exact h

theorem switches_options {option : String} (hname : dashed option = option)
    (h : Switches table option setting value) :
    Switches (options table) option setting value := by
  rw [← hname] at h
  rw [Switches, options]
  exact h

/-- The names of the managed flags have dashes only. -/
theorem KnowsManaged.options (h : KnowsManaged table) : KnowsManaged (LlamaArguments.options table) where
  model := takes_options (by decide) h.model
  host := takes_options (by decide) h.host
  port := takes_options (by decide) h.port
  metrics := switches_options (by decide) h.metrics
  parallel := takes_options (by decide) h.parallel
  kvUnified := switches_options (by decide) h.kvUnified
  slots := switches_options (by decide) h.slots
  slotSavePath := takes_options (by decide) h.slotSavePath
  cachePrompt := switches_options (by decide) h.cachePrompt
  device := takes_options (by decide) h.device
  gpuLayers := takes_options (by decide) h.gpuLayers
  kvOffload := switches_options (by decide) h.kvOffload
  opOffload := switches_options (by decide) h.opOffload
  logging := switches_options (by decide) h.logging

/-- What the leading options write. -/
def leadingWrites (modelPath : String) (port : UInt16) (slotSavePath : String) :
    List (Setting × String) :=
  [(.model, modelPath), (.host, "127.0.0.1"), (.port, toString port.toNat), (.metrics, "on"),
    (.parallel, toString managedLlamaParallelSlots.toNat), (.kvUnified, "on"), (.slots, "on"),
    (.slotSavePath, slotSavePath), (.cachePrompt, "off")]

theorem KnowsManaged.writes_leading (h : KnowsManaged (LlamaArguments.options table)) :
    Writes (LlamaArguments.options table) (leadingArgs modelPath port slotSavePath)
      (leadingWrites modelPath port slotSavePath) :=
  h.model.writes_cons (h.host.writes_cons (h.port.writes_cons (h.metrics.writes_cons
    (h.parallel.writes_cons (h.kvUnified.writes_cons (h.slots.writes_cons
      (h.slotSavePath.writes_cons h.cachePrompt.writes)))))))

/-- What the trailing options write. -/
def trailingWrites (effectiveCpuOnly : Bool) : List (Setting × String) :=
  (if effectiveCpuOnly then
    [(.device, "none"), (.gpuLayers, "0"), (.kvOffload, "off"), (.opOffload, "off")]
  else []) ++ [(.logging, "off")]

theorem KnowsManaged.writes_trailing (h : KnowsManaged (LlamaArguments.options table)) :
    Writes (LlamaArguments.options table) (trailingArgs effectiveCpuOnly) (trailingWrites effectiveCpuOnly) := by
  cases effectiveCpuOnly with
  | false => exact h.logging.writes
  | true =>
      exact h.device.writes_cons (h.gpuLayers.writes_cons (h.kvOffload.writes_cons
        (h.opOffload.writes_cons h.logging.writes)))

theorem last_trailingWrites :
    last (trailingWrites effectiveCpuOnly) setting = trailingValue effectiveCpuOnly setting := by
  cases effectiveCpuOnly with
  | false => cases setting <;> rfl
  | true => cases setting <;> rfl

theorem last_leadingWrites (h : leadingValue modelPath port slotSavePath setting = some value) :
    last (leadingWrites modelPath port slotSavePath) setting = some value := by
  rw [← h]
  cases setting <;> first | rfl | cases h

theorem last_leadingWrites_of_trailing (h : trailingValue effectiveCpuOnly setting = some value) :
    last (leadingWrites modelPath port slotSavePath) setting = none := by
  cases setting <;> first | rfl | cases h

/-- The leading and the trailing options write different settings. -/
theorem trailingValue_of_leading (h : leadingValue modelPath port slotSavePath setting =
    some value) : trailingValue effectiveCpuOnly setting = none := by
  cases setting <;> first | rfl | cases h

end Reading

section Parsed
variable {table : OptionTable} {macos : Bool} {modelPath : String} {port : UInt16}
  {slotSavePath : String} {cpuOnly : Bool} {additionalArgs args : List String}
  {writes : List (Setting × String)}

theorem buildManagedLlamaArgs_eq_ok :
    buildManagedLlamaArgs macos modelPath port slotSavePath cpuOnly additionalArgs = .ok args ↔
      (∀ argument ∈ additionalArgs, isLlamaManagedRuntimeOverride argument = false ∧
        ((cpuOnly || macos) = true → isLlamaCpuPolicyOverride argument = false)) ∧
      args = leadingArgs modelPath port slotSavePath ++ (additionalArgs ++
        trailingArgs (cpuOnly || macos)) := by
  simp only [buildManagedLlamaArgs]
  split
  · rename_i argument hfound
    refine iff_of_false (by rintro ⟨⟩) ?_
    rintro ⟨hallowed, _⟩
    have hdenied := List.find?_some hfound
    obtain ⟨hruntime, hcpu⟩ := hallowed argument (List.mem_of_find?_eq_some hfound)
    rw [hruntime, Bool.false_or, Bool.and_eq_true] at hdenied
    rw [hcpu hdenied.1] at hdenied
    cases hdenied.2
  · rename_i hnone
    rw [List.find?_eq_none] at hnone
    constructor
    · rintro ⟨⟩
      refine ⟨fun argument hargument => ?_, List.append_assoc _ _ _⟩
      have hallowed := hnone argument hargument
      rw [Bool.not_eq_true, Bool.or_eq_false_iff, Bool.and_eq_false_iff] at hallowed
      refine ⟨hallowed.1, fun hcpu => hallowed.2.resolve_left ?_⟩
      rw [hcpu]
      decide
    · rintro ⟨_, rfl⟩
      rw [List.append_assoc]

/-- The three parts of the command line, one read behind the other. -/
theorem parse_parts (hknows : KnowsManaged table) {effectiveCpuOnly : Bool}
    (hparse : parse (options table) (leadingArgs modelPath port slotSavePath ++ (additionalArgs ++
      trailingArgs effectiveCpuOnly)) = some writes) :
    ∃ own behind, readAll (options table) .start additionalArgs = some own ∧
      readAll (options table) ⟨[], own.pending⟩ (trailingArgs effectiveCpuOnly) = some behind ∧
      writes = leadingWrites modelPath port slotSavePath ++ (own.writes ++ behind.writes) := by
  obtain ⟨front, rest, hfront, hrest, hwrites⟩ :=
    readAll_append_eq_some.mp (parse_eq_some.mp hparse)
  have hleading : readAll (options table) .start (leadingArgs modelPath port slotSavePath) =
      some ⟨leadingWrites modelPath port slotSavePath, none⟩ := hknows.options.writes_leading
  rw [hleading] at hfront
  cases hfront
  obtain ⟨own, behind, hown, hbehind, rfl⟩ := readAll_append_eq_some.mp hrest
  exact ⟨own, behind, hown, hbehind, (Reading.mk.inj hwrites).1⟩

/-- Behind the leading options the managed values stay where nothing else is left. -/
theorem managed_append {effectiveCpuOnly : Bool} {later : List (Setting × String)} :
    Managed modelPath port slotSavePath effectiveCpuOnly
        (leadingWrites modelPath port slotSavePath ++ later) ↔
      Spares modelPath port slotSavePath later ∧ Covers effectiveCpuOnly later := by
  refine and_congr ?_ ?_
  · refine forall_congr' fun setting => forall_congr' fun value => forall_congr' fun hvalue => ?_
    rw [last_append, last_leadingWrites hvalue]
    cases last later setting with
    | none => simp
    | some written => simp [eq_comm]
  · refine forall_congr' fun setting => forall_congr' fun value => forall_congr' fun hvalue => ?_
    rw [last_append, last_leadingWrites_of_trailing hvalue, Option.or_none]

/-- The trailing options have the last word on their settings and on no other. -/
theorem spares_append_trailing {effectiveCpuOnly : Bool} {own : List (Setting × String)} :
    Spares modelPath port slotSavePath (own ++ trailingWrites effectiveCpuOnly) ↔
      Spares modelPath port slotSavePath own := by
  refine forall_congr' fun setting => forall_congr' fun value => forall_congr' fun hvalue => ?_
  rw [last_append, last_trailingWrites, trailingValue_of_leading hvalue, Option.none_or]

theorem covers_append_trailing {effectiveCpuOnly : Bool} {own : List (Setting × String)} :
    Covers effectiveCpuOnly (own ++ trailingWrites effectiveCpuOnly) := by
  intro setting value hvalue
  rw [last_append, last_trailingWrites, hvalue, Option.some_or]

/-- The managed values stay exactly where the additional arguments leave the leading settings
alone and do not take the trailing options as values. -/
theorem managed_iff_undisturbed (hknows : KnowsManaged table)
    (hbuild : buildManagedLlamaArgs macos modelPath port slotSavePath cpuOnly additionalArgs =
      .ok args)
    (hparse : parse (options table) args = some writes) :
    Managed modelPath port slotSavePath (cpuOnly || macos) writes ↔
      Undisturbed modelPath port slotSavePath (cpuOnly || macos) table additionalArgs := by
  obtain ⟨_, rfl⟩ := buildManagedLlamaArgs_eq_ok.mp hbuild
  obtain ⟨own, behind, hown, hbehind, rfl⟩ := parse_parts hknows hparse
  rw [managed_append]
  by_cases hpending : own.pending = none
  · have htrailing : readAll (options table) .start (trailingArgs (cpuOnly || macos)) =
        some ⟨trailingWrites (cpuOnly || macos), none⟩ := hknows.options.writes_trailing
    rw [hpending] at hbehind
    have hlast : behind.writes = trailingWrites (cpuOnly || macos) := by
      rw [← Option.some.inj (htrailing.symm.trans hbehind)]
    rw [hlast, spares_append_trailing]
    constructor
    · rintro ⟨hspares, _⟩
      exact ⟨own, hown, .inl ⟨hpending, hspares⟩⟩
    · rintro ⟨own', hown', hcase⟩
      obtain rfl := Option.some.inj (hown.symm.trans hown')
      rcases hcase with ⟨_, hspares⟩ | ⟨hwaiting, _⟩
      · exact ⟨hspares, covers_append_trailing⟩
      · exact absurd hpending hwaiting
  · constructor
    · rintro ⟨hspares, hcovers⟩
      exact ⟨own, hown, .inr ⟨hpending, behind, hbehind, hspares, hcovers⟩⟩
    · rintro ⟨own', hown', hcase⟩
      obtain rfl := Option.some.inj (hown.symm.trans hown')
      rcases hcase with ⟨hcomplete, _⟩ | ⟨_, behind', hbehind', hspares, hcovers⟩
      · exact absurd hcomplete hpending
      · obtain rfl := Option.some.inj (hbehind.symm.trans hbehind')
        exact ⟨hspares, hcovers⟩

end Parsed

section Spellings
variable {table : OptionTable} {macos : Bool} {modelPath : String} {port : UInt16}
  {slotSavePath : String} {cpuOnly : Bool} {additionalArgs args : List String}

/-- The leading settings that the deny-list is about. -/
def denied : Setting → Prop
  | .parallel | .kvUnified | .slots | .slotSavePath | .cachePrompt => True
  | _ => False

/-- No spelling of a denied setting is missing on the deny-list. -/
def Listed (table : OptionTable) : Prop :=
  ∀ name entry, table name = some entry → denied entry.setting →
    isLlamaManagedRuntimeOverride name = true

theorem normalizedName_dashed (token : String) :
    normalizedName (dashed token) = normalizedName token := by
  have hsame : ∀ chars : List Char,
      (((chars.map fun c => if c = '_' then '-' else c).takeWhile (· ≠ '=')).map
        fun c => if c = '_' then '-' else c) =
      (chars.takeWhile (· ≠ '=')).map fun c => if c = '_' then '-' else c := by
    intro chars
    induction chars with
    | nil => rfl
    | cons c rest ih =>
        by_cases hdash : c = '_'
        · subst hdash
          simpa using ih
        · by_cases hequals : c = '='
          · subst hequals
            rfl
          · simp only [List.map_cons, if_neg hdash]
            rw [List.takeWhile_cons_of_pos (by simpa using hequals),
              List.takeWhile_cons_of_pos (by simpa using hequals), List.map_cons, List.map_cons,
              ih, if_neg hdash]
  simp only [normalizedName, dashed, String.toList_ofList, hsame]

theorem isLlamaManagedRuntimeOverride_dashed (token : String) :
    isLlamaManagedRuntimeOverride (dashed token) = isLlamaManagedRuntimeOverride token := by
  simp only [isLlamaManagedRuntimeOverride, isLlamaLoggingOverride, normalizedName_dashed]

theorem leadingValue_of_free {setting : Setting} (hdenied : ¬ denied setting)
    (hmodel : setting ≠ .model) (hhost : setting ≠ .host) (hport : setting ≠ .port) :
    leadingValue modelPath port slotSavePath setting = none := by
  cases setting with
  | model => exact absurd rfl hmodel
  | host => exact absurd rfl hhost
  | port => exact absurd rfl hport
  | parallel => exact absurd trivial hdenied
  | kvUnified => exact absurd trivial hdenied
  | slots => exact absurd trivial hdenied
  | slotSavePath => exact absurd trivial hdenied
  | cachePrompt => exact absurd trivial hdenied
  | _ => rfl

/-- Where the deny-list knows all spellings, complete additional options can only reach the
model, the host and the port of the leading settings. -/
theorem undisturbed_of_listed (hlisted : Listed table)
    (hbuild : buildManagedLlamaArgs macos modelPath port slotSavePath cpuOnly additionalArgs =
      .ok args) {own : List (Setting × String)}
    (hown : Writes (options table) additionalArgs own)
    (hfree : ∀ write ∈ own, write.1 ≠ .model ∧ write.1 ≠ .host ∧ write.1 ≠ .port) :
    Undisturbed modelPath port slotSavePath (cpuOnly || macos) table additionalArgs := by
  obtain ⟨hallowed, _⟩ := buildManagedLlamaArgs_eq_ok.mp hbuild
  have hamong := @among_readAll _ _ _ _ (fun setting => ¬ denied setting) _ _ _ hown
    ⟨fun _ h => absurd h List.not_mem_nil, by rintro _ ⟨⟩⟩ ?_
  · refine ⟨_, hown, .inl ⟨rfl, fun setting value hvalue written hwritten => ?_⟩⟩
    obtain ⟨write, hwrite, _⟩ := Option.map_eq_some_iff.mp hwritten
    obtain ⟨hmem, hsetting⟩ := List.mem_filter.mp (List.mem_of_getLast? hwrite)
    obtain rfl : write.1 = setting := by simpa using hsetting
    obtain ⟨hmodel, hhost, hport⟩ := hfree write hmem
    rw [leadingValue_of_free (hamong.1 write hmem) hmodel hhost hport] at hvalue
    cases hvalue
  · intro token htoken entry hentry hdenied
    have hoverride := hlisted _ entry hentry hdenied
    rw [isLlamaManagedRuntimeOverride_dashed, (hallowed token htoken).1] at hoverride
    cases hoverride

end Spellings

section Sample

/-- An option with one token as its value. -/
def taking (setting : Setting) : Entry String Setting String :=
  ⟨setting, 1, fun tokens => tokens.headD ""⟩

def switching (setting : Setting) (value : String) : Entry String Setting String :=
  ⟨setting, 0, fun _ => value⟩

/-- Some options of the engine. -/
def sampleTable : OptionTable
  | "-m" => some (taking .model)
  | "--model" => some (taking .model)
  | "--host" => some (taking .host)
  | "--port" => some (taking .port)
  | "--metrics" => some (switching .metrics "on")
  | "-np" => some (taking .parallel)
  | "--parallel" => some (taking .parallel)
  | "--kv-unified" => some (switching .kvUnified "on")
  | "--no-kv-unified" => some (switching .kvUnified "off")
  | "--slots" => some (switching .slots "on")
  | "--no-slots" => some (switching .slots "off")
  | "--slot-save-path" => some (taking .slotSavePath)
  | "--cache-prompt" => some (switching .cachePrompt "on")
  | "--no-cache-prompt" => some (switching .cachePrompt "off")
  | "--device" => some (taking .device)
  | "--n-gpu-layers" => some (taking .gpuLayers)
  | "--no-kv-offload" => some (switching .kvOffload "off")
  | "--no-op-offload" => some (switching .opOffload "off")
  | "--log-disable" => some (switching .logging "off")
  | "--ctx-size" => some (taking (.other "ctx-size"))
  | _ => none

theorem knowsManaged_sampleTable : KnowsManaged sampleTable where
  model := ⟨_, rfl, rfl, rfl, fun _ => rfl⟩
  host := ⟨_, rfl, rfl, rfl, fun _ => rfl⟩
  port := ⟨_, rfl, rfl, rfl, fun _ => rfl⟩
  metrics := ⟨_, rfl, rfl, rfl, rfl⟩
  parallel := ⟨_, rfl, rfl, rfl, fun _ => rfl⟩
  kvUnified := ⟨_, rfl, rfl, rfl, rfl⟩
  slots := ⟨_, rfl, rfl, rfl, rfl⟩
  slotSavePath := ⟨_, rfl, rfl, rfl, fun _ => rfl⟩
  cachePrompt := ⟨_, rfl, rfl, rfl, rfl⟩
  device := ⟨_, rfl, rfl, rfl, fun _ => rfl⟩
  gpuLayers := ⟨_, rfl, rfl, rfl, fun _ => rfl⟩
  kvOffload := ⟨_, rfl, rfl, rfl, rfl⟩
  opOffload := ⟨_, rfl, rfl, rfl, rfl⟩
  logging := ⟨_, rfl, rfl, rfl, rfl⟩

def sampleArgs (additionalArgs : List String) (effectiveCpuOnly : Bool) : List String :=
  leadingArgs "/models/safe.gguf" 18080 "/runtime/llama-slot-cache" ++ (additionalArgs ++
    trailingArgs effectiveCpuOnly)

/-- A complete option of another setting changes nothing that is managed. -/
theorem managed_sample : ∃ writes,
    parse (options sampleTable) (sampleArgs ["--ctx-size", "4096"] true) = some writes ∧
      Managed "/models/safe.gguf" 18080 "/runtime/llama-slot-cache" true writes := by
  have hbuild : buildManagedLlamaArgs false "/models/safe.gguf" 18080 "/runtime/llama-slot-cache"
      true ["--ctx-size", "4096"] = .ok (sampleArgs ["--ctx-size", "4096"] true) := by
    decide +kernel
  obtain ⟨writes, hparse⟩ := Option.isSome_iff_exists.mp (show (parse (options sampleTable)
    (sampleArgs ["--ctx-size", "4096"] true)).isSome = true by decide +kernel)
  refine ⟨writes, hparse, (managed_iff_undisturbed knowsManaged_sampleTable hbuild hparse).mpr ?_⟩
  refine ⟨⟨[(.other "ctx-size", "4096")], none⟩, rfl, .inl ⟨rfl, ?_⟩⟩
  intro setting value hvalue written hwritten
  cases setting <;> first | cases hwritten | cases hvalue

/-- Another host is written behind the managed one, and an option without its value takes the
flag that disables logging. -/
theorem managed_overridden :
    (∃ args writes, buildManagedLlamaArgs false "/models/safe.gguf" 18080
        "/runtime/llama-slot-cache" false ["--host", "0.0.0.0"] = .ok args ∧
      parse (options sampleTable) args = some writes ∧ last writes .host = some "0.0.0.0" ∧
      ¬ Managed "/models/safe.gguf" 18080 "/runtime/llama-slot-cache" false writes) ∧
    ∃ args writes, buildManagedLlamaArgs false "/models/safe.gguf" 18080
        "/runtime/llama-slot-cache" false ["--ctx-size"] = .ok args ∧
      parse (options sampleTable) args = some writes ∧ last writes .logging = none ∧
      ¬ Managed "/models/safe.gguf" 18080 "/runtime/llama-slot-cache" false writes := by
  constructor
  · obtain ⟨writes, hparse, hhost⟩ := Option.map_eq_some_iff.mp (show (parse (options sampleTable)
      (sampleArgs ["--host", "0.0.0.0"] false)).map (fun writes => last writes .host) =
        some (some "0.0.0.0") by decide +kernel)
    refine ⟨_, writes, (by decide +kernel : buildManagedLlamaArgs _ _ _ _ _ _ =
      .ok (sampleArgs ["--host", "0.0.0.0"] false)), hparse, hhost, ?_⟩
    rintro ⟨hleading, _⟩
    exact absurd (hhost.symm.trans (hleading .host "127.0.0.1" rfl)) (by decide)
  · obtain ⟨writes, hparse, hlogging⟩ := Option.map_eq_some_iff.mp
      (show (parse (options sampleTable) (sampleArgs ["--ctx-size"] false)).map
        (fun writes => last writes .logging) = some none by decide +kernel)
    refine ⟨_, writes, (by decide +kernel : buildManagedLlamaArgs _ _ _ _ _ _ =
      .ok (sampleArgs ["--ctx-size"] false)), hparse, hlogging, ?_⟩
    rintro ⟨_, htrailing⟩
    exact absurd (hlogging.symm.trans (htrailing .logging "off" rfl)) (by decide)

end Sample

end MindOne.Engine.LlamaArguments
