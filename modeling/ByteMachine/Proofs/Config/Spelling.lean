import ByteMachine.Proofs.Numeral
import ByteMachine.Proofs.System.Initial

/-!
The many ways of writing a configuration down as a mapping, each of which reads back as just that
configuration.  What has its default may be left out, down to whole sections.
-/

namespace ByteMachine

namespace Text

variable {c : Char} {n : Nat}

theorem isLower_iff : c.isLower ↔ 'a'.val ≤ c.val ∧ c.val ≤ 'z'.val := by
  delta Char.isLower
  simp

theorem toUpper_of_not_isLower (h : ¬c.isLower = true) : c.toUpper = c := by
  rw [isLower_iff] at h
  delta Char.toUpper
  rw [dif_neg h]

theorem toUpper_of_isLower (h : c.isLower) : c.toUpper = Char.ofNat (c.toNat - 32) := by
  have hrange := isLower_iff.mp h
  have hvalue : c.toUpper.val = c.val + ('A'.val - 'a'.val) := by
    delta Char.toUpper
    rw [dif_pos hrange]
  rw [UInt32.le_iff_toNat_le, UInt32.le_iff_toNat_le] at hrange
  simp only [Char.reduceVal, UInt32.reduceToNat] at hrange
  have hcode : c.toUpper.toNat = c.toNat - 32 := by
    rw [← Char.toNat_val, hvalue, UInt32.toNat_add, ← Char.toNat_val]
    simp only [Char.reduceVal, UInt32.reduceSub, UInt32.reduceToNat]
    omega
  rw [← hcode, Char.ofNat_toNat]

theorem longCapitals_lookup (h : n < 128) : longCapitals.lookup n = none := by
  have hbeyond : ∀ entry ∈ longCapitals, 128 ≤ entry.1 := by decide
  rw [List.lookup_eq_none_iff]
  intro entry hmem
  have hentry := hbeyond entry hmem
  simp only [bne_iff_ne]
  omega

theorem firstRun_contains (c : Char) :
    (CaseRun.mk 0x61 0x7a 1 (-32)).contains c.toNat = c.isLower := by
  rw [Bool.eq_iff_iff, isLower_iff]
  simp [CaseRun.contains, Nat.mod_one, UInt32.le_iff_toNat_le, ← Char.toNat_val]

theorem otherCase_ascii (h : c.toNat < 128) :
    (otherCase? capitalRuns c).getD c = c.toUpper := by
  have hbeyond : ∀ run ∈ capitalRuns.toList.tail, 128 ≤ run.first := by decide +kernel
  have hruns : capitalRuns.toList = ⟨0x61, 0x7a, 1, -32⟩ :: capitalRuns.toList.tail := rfl
  have hrest : capitalRuns.toList.tail.find? (·.contains c.toNat) = none := by
    rw [List.find?_eq_none]
    intro run hmem
    have hrun := hbeyond run hmem
    simp only [CaseRun.contains, Bool.and_eq_true, decide_eq_true_eq]
    omega
  rw [otherCase?, ← Array.find?_toList, hruns, List.find?_cons, hrest, firstRun_contains]
  cases hc : c.isLower with
  | false => exact (toUpper_of_not_isLower (by simp [hc])).symm
  | true =>
    have hvalue : ((c.toNat : Int) + -32).toNat = c.toNat - 32 := by omega
    rw [toUpper_of_isLower hc, ← hvalue]
    rfl

theorem upperChar_ascii (h : c.toNat < 128) : upperChar c = [c.toUpper] := by
  simp only [upperChar, longCapitals_lookup h, otherCase_ascii h]

theorem ascii_of_toUpper (h : c.toUpper.toNat < 128) : c.toNat < 128 := by
  by_cases hc : c.isLower
  · have hrange : 97 ≤ c.toNat ∧ c.toNat ≤ 122 := by
      simpa [isLower_iff, UInt32.le_iff_toNat_le, ← Char.toNat_val] using hc
    omega
  · rwa [toUpper_of_not_isLower hc] at h

theorem upper_ascii {text level : String} (h : text.toList.map Char.toUpper = level.toList)
    (hl : ∀ c ∈ level.toList, c.toNat < 128) : upper text = level := by
  rw [upper, ← String.toList_inj, String.toList_ofList, ← h]
  rw [← List.flatMap_singleton' (text.toList.map Char.toUpper), List.flatMap_map]
  refine List.flatMap_congr fun c hc => ?_
  refine upperChar_ascii (ascii_of_toUpper (hl _ ?_))
  rw [← h]
  exact List.mem_map_of_mem hc

end Text

namespace Config

variable {config : Config} {entries root : List (Value × Value)} {key name : String}
  {value : Value} {spells : Value → Prop} {isDefault : Prop}

section Entries

def DistinctKeys (entries : List (Value × Value)) : Prop := (entries.map Prod.fst).Nodup

/-- The entry is left out and means its default, or it is there and spells what is meant. -/
def Gives (entries : List (Value × Value)) (key : String) (isDefault : Prop)
    (spells : Value → Prop) : Prop :=
  (isDefault ∧ ∀ value, (.text key, value) ∉ entries) ∨
    ∃ value, (.text key, value) ∈ entries ∧ spells value

inductive HasSection (root : List (Value × Value)) (name : String) :
    List (Value × Value) → Prop where
  | omitted (h : ∀ value, (.text name, value) ∉ root) : HasSection root name []
  | empty {value : Value} (h : (.text name, value) ∈ root) (hf : value.truthy = false) :
      HasSection root name []
  | mapping {entries : List (Value × Value)} (h : (.text name, .mapping entries) ∈ root)
      (hd : DistinctKeys entries) : HasSection root name entries

theorem get_of_notMem (h : ∀ value, (.text key, value) ∉ entries) :
    Value.get? entries key = none := by
  rw [Value.get?, List.find?_eq_none.mpr, Option.map_none]
  rintro ⟨k, value⟩ hmem hsame
  rw [sameKey_text] at hsame
  subst hsame
  exact h value hmem

theorem get_of_mem (hd : DistinctKeys entries) (h : (.text key, value) ∈ entries) :
    Value.get? entries key = some value := by
  induction entries with
  | nil => cases h
  | cons entry rest ih =>
    obtain ⟨hnot, hrest⟩ := List.nodup_cons.mp hd
    rw [Value.get?, List.find?_cons]
    obtain rfl | h := List.mem_cons.mp h
    · rw [(sameKey_text _ _).mpr rfl]
      rfl
    · have hother : ¬entry.1.sameKey (.text key) := by
        rw [sameKey_text]
        intro he
        exact hnot (he ▸ List.mem_map_of_mem h)
      rw [Bool.eq_false_of_not_eq_true hother]
      exact ih hrest h

theorem Gives.read (h : Gives entries key isDefault spells) (hd : DistinctKeys entries) :
    (isDefault ∧ Value.get? entries key = none) ∨
      ∃ value, Value.get? entries key = some value ∧ spells value := by
  obtain ⟨hdefault, hnone⟩ | ⟨value, hmem, hspells⟩ := h
  · exact .inl ⟨hdefault, get_of_notMem hnone⟩
  · exact .inr ⟨value, get_of_mem hd hmem, hspells⟩

theorem HasSection.read (h : HasSection root name entries) (hd : DistinctKeys root) :
    sectionEntries root name = .ok entries ∧ DistinctKeys entries := by
  cases h with
  | omitted h => exact ⟨by rw [sectionEntries, get_of_notMem h], List.nodup_nil⟩
  | empty h hf => exact ⟨by simp [sectionEntries, get_of_mem hd h, hf], List.nodup_nil⟩
  | mapping h hentries =>
    refine ⟨?_, hentries⟩
    rw [sectionEntries, get_of_mem hd h]
    cases entries <;> rfl

end Entries

section Values

inductive SpellsInteger (n : Int) : Value → Prop where
  | number : SpellsInteger n (.int n)
  | text {text : String} (h : Numeral.Spells text n) : SpellsInteger n (.text text)

def SpellsLevel (level : String) (value : Value) : Prop :=
  ∃ text, value = .text text ∧ text.toList.map Char.toUpper = level.toList

theorem readInteger_spelled {n : Int} (h : SpellsInteger n value) : readInteger value = .ok n := by
  cases h with
  | number => rfl
  | text h => simp only [readInteger, Numeral.parse_spelled h]

theorem intOr_given {n fallback : Int} (hd : DistinctKeys entries)
    (h : Gives entries key (n = fallback) (SpellsInteger n)) :
    intOr (Value.get? entries) key fallback = .ok n := by
  obtain ⟨rfl, hnone⟩ | ⟨value, hsome, hspells⟩ := h.read hd
  · rw [intOr, hnone]
  · rw [intOr, hsome]
    exact readInteger_spelled hspells

theorem flagOr_given {flag fallback : Bool} (hd : DistinctKeys entries)
    (h : Gives entries key (flag = fallback) (· = .bool flag)) :
    flagOr (Value.get? entries) key fallback = flag := by
  obtain ⟨rfl, hnone⟩ | ⟨value, hsome, rfl⟩ := h.read hd
  · rw [flagOr, hnone]
  · rw [flagOr, hsome]
    rfl

theorem getD_given {content fallback : Value} (hd : DistinctKeys entries)
    (h : Gives entries key (content = fallback) (· = content)) :
    (Value.get? entries key).getD fallback = content := by
  obtain ⟨rfl, hnone⟩ | ⟨value, hsome, rfl⟩ := h.read hd
  · rw [hnone, Option.getD_none]
  · rw [hsome, Option.getD_some]

theorem level_given {level : String} (hd : DistinctKeys entries)
    (h : Gives entries key (level = "WARNING") (SpellsLevel level))
    (hl : ∀ c ∈ level.toList, c.toNat < 128) :
    Text.upper ((Value.get? entries key).getD (.text "WARNING")).shown = level := by
  obtain ⟨rfl, hnone⟩ | ⟨_, hsome, text, rfl, htext⟩ := h.read hd
  · rw [hnone, Option.getD_none]
    exact Text.upper_ascii (by decide) hl
  · rw [hsome, Option.getD_some]
    exact Text.upper_ascii htext hl

end Values

/-- The mapping says what the configuration is.  Besides what is listed here it may have any keys,
and so may its sections. -/
structure Spelled (config : Config) (root : List (Value × Value)) : Prop where
  distinct : DistinctKeys root
  architecture : Gives root "architecture" (config.architecture = .text "EVM")
    (· = config.architecture)
  machine : ∃ entries, HasSection root "machine" entries ∧
    Gives entries "memory_size" (config.memorySize = Bootstrap.largestMemory)
      (SpellsInteger config.memorySize) ∧
    Gives entries "initial_pc" (config.initialPc = 0) (SpellsInteger config.initialPc)
  trace : ∃ entries, HasSection root "trace" entries ∧
    Gives entries "enabled" (config.traceEnabled = false) (· = .bool config.traceEnabled) ∧
    Gives entries "pause" (config.tracePause = true) (· = .bool config.tracePause)
  logging : ∃ entries, HasSection root "logging" entries ∧
    Gives entries "level" (config.level = "WARNING") (SpellsLevel config.level)
  image : ∃ entries, HasSection root "image" entries ∧
    Gives entries "load" (config.load = .null) (· = config.load) ∧
    Gives entries "save" (config.save = .null) (· = config.save)

def written (config : Config) : List (Value × Value) := [
  (.text "architecture", config.architecture),
  (.text "machine", .mapping [
    (.text "memory_size", .text (toString config.memorySize)),
    (.text "initial_pc", .text (toString config.initialPc))]),
  (.text "trace", .mapping [
    (.text "enabled", .bool config.traceEnabled), (.text "pause", .bool config.tracePause)]),
  (.text "logging", .mapping [(.text "level", .text config.level)]),
  (.text "image", .mapping [(.text "load", config.load), (.text "save", config.save)])]

theorem Gives.entry {content : Value} (h : (.text key, content) ∈ entries) (hs : spells content) :
    Gives entries key isDefault spells := .inr ⟨content, h, hs⟩

theorem written_spelled (hl : config.level.toList.map Char.toUpper = config.level.toList) :
    config.Spelled config.written where
  distinct := by simp [DistinctKeys, written]
  architecture := .entry (List.Mem.head _) rfl
  machine := ⟨_, .mapping (List.Mem.tail _ (List.Mem.head _)) (by simp [DistinctKeys]),
    .entry (by simp) (.text (Numeral.spells_toString _)),
    .entry (by simp) (.text (Numeral.spells_toString _))⟩
  trace := ⟨_, .mapping (List.Mem.tail _ (List.Mem.tail _ (List.Mem.head _)))
    (by simp [DistinctKeys]), .entry (by simp) rfl, .entry (by simp) rfl⟩
  logging := ⟨_, .mapping (List.Mem.tail _ (List.Mem.tail _ (List.Mem.tail _ (List.Mem.head _))))
    (by simp [DistinctKeys]), .entry (by simp) ⟨_, rfl, hl⟩⟩
  image := ⟨_, .mapping (List.Mem.tail _ (List.Mem.tail _ (List.Mem.tail _ (List.Mem.tail _
    (List.Mem.head _))))) (by simp [DistinctKeys]), .entry (by simp) rfl, .entry (by simp) rfl⟩

theorem ofEntries_entryOf (h : sectionEntries root name = .ok entries) :
    (Source.ofEntries root).entryOf name = .ok (Value.get? entries) := by
  change (sectionEntries root name).map Value.get? = _
  rw [h]
  rfl

/-- A configuration is read back from every mapping that spells it. -/
theorem spelled_configuration_is_read (hl : ∀ c ∈ config.level.toList, c.toNat < 128)
    (h : config.Spelled root) : ofValue (.mapping root) = .ok config := by
  obtain ⟨machine, hmachine, hsize, hpc⟩ := h.machine
  obtain ⟨trace, htrace, henabled, hpause⟩ := h.trace
  obtain ⟨logging, hlogging, hlevel⟩ := h.logging
  obtain ⟨image, himage, hload, hsave⟩ := h.image
  obtain ⟨hmachine, hdmachine⟩ := hmachine.read h.distinct
  obtain ⟨htrace, hdtrace⟩ := htrace.read h.distinct
  obtain ⟨hlogging, hdlogging⟩ := hlogging.read h.distinct
  obtain ⟨himage, hdimage⟩ := himage.read h.distinct
  change ofSource (.ofEntries root) = .ok config
  simp only [ofSource, ofEntries_entryOf hmachine, ofEntries_entryOf htrace,
    ofEntries_entryOf hlogging, ofEntries_entryOf himage, bind, Except.bind, pure, Except.pure,
    intOr_given hdmachine hsize, intOr_given hdmachine hpc, flagOr_given hdtrace henabled,
    flagOr_given hdtrace hpause, level_given hdlogging hlevel hl, getD_given hdimage hload,
    getD_given hdimage hsave]
  have harchitecture := getD_given h.distinct h.architecture
  exact congrArg (fun architecture => Except.ok { config with architecture }) harchitecture

/-- A mapping in no particular order, with numbers in both bases, an empty section, another one that
is missing, and keys that nobody knows. -/
def scattered : List (Value × Value) := [
  (.text "image", .null),
  (.text "Trace", .list [.null]),
  (.text "machine", .mapping [
    (.text "initial_pc", .text "-3"), (.bool true, .null), (.text "memory_size", .text "0X0fF")]),
  (.text "logging", .mapping [(.text "level", .text "dEbUg")])]

theorem spelled_configuration_is_read_scattered :
    let config : Config := { memorySize := 255, initialPc := -3, level := "DEBUG" }
    config.Spelled scattered ∧ ofValue (.mapping scattered) = .ok config := by
  intro config
  have hdigits : Numeral.Digits 16 ['0', 'f', 'F'] 255 := ⟨1, by decide⟩
  have hsize : Numeral.Spells "0X0fF" 255 := .hexadecimal (.inr rfl) hdigits
  have hdigit : Numeral.Digits 10 ['3'] 3 := ⟨0, by decide⟩
  have hpc : Numeral.Spells "-3" (-3) := .negative hdigit
  have hlevel : SpellsLevel "DEBUG" (.text "dEbUg") := ⟨_, rfl, by decide⟩
  have hspelled : config.Spelled scattered := {
    distinct := by simp [DistinctKeys, scattered]
    architecture := .inl ⟨rfl, by simp [scattered]⟩
    machine := ⟨_, .mapping (List.Mem.tail _ (List.Mem.tail _ (List.Mem.head _)))
      (by simp [DistinctKeys]), .entry (by simp) (.text hsize), .entry (by simp) (.text hpc)⟩
    trace := ⟨_, .omitted (by simp [scattered]), .inl ⟨rfl, by simp⟩, .inl ⟨rfl, by simp⟩⟩
    logging := ⟨_, .mapping (List.Mem.tail _ (List.Mem.tail _ (List.Mem.tail _ (List.Mem.head _))))
      (by simp [DistinctKeys]), .entry (List.Mem.head _) hlevel⟩
    image := ⟨_, .empty (List.Mem.head _) rfl, .inl ⟨rfl, by simp⟩, .inl ⟨rfl, by simp⟩⟩ }
  have hascii : ∀ c ∈ "DEBUG".toList, c.toNat < 128 := by simp
  exact ⟨hspelled, spelled_configuration_is_read hascii hspelled⟩

end Config

end ByteMachine
