import ByteMachine.Config.File
import ByteMachine.Proofs.Image.Saving
import Mathlib.Tactic.Common

/-!
How reading a configuration fails.  Most of what can be wrong is reported as an error of the
configuration.  What is not: sections that are given but no mappings, paths that the system cannot
be asked for, and files that are no texts.  Of a reader of documents it is assumed that it reads a
text or finds it malformed.
-/

namespace ByteMachine

theorem except_bind_eq_error_iff {ε α β : Type} {result : Except ε α} {next : α → Except ε β}
    {e : ε} :
    (result >>= next) = .error e ↔ result = .error e ∨ ∃ a, result = .ok a ∧ next a = .error e := by
  cases result <;> simp [bind, Except.bind]

/-- The failure is not reported as an error of the configuration. -/
def ConfigFailure.Escapes : ConfigFailure → Prop
  | .config _ => False
  | _ => True

namespace Config

variable {source : Source} {entry : String → Option Value} {failure : ConfigFailure}
  {files : FileTree} {path : String} {content : List UInt8} {reader : DocumentReader}

/-- Sections of the source fail in no other way than by their shape. -/
def Source.Sectioned (source : Source) : Prop :=
  ∀ name failure, source.entryOf name = .error failure → failure = .sectionShape

theorem Source.Sectioned.misshapen_or_read (h : source.Sectioned) (name : String) :
    source.entryOf name = .error .sectionShape ∨ ∃ entries, source.entryOf name = .ok entries := by
  cases he : source.entryOf name with
  | error failure => exact .inl (congrArg _ (h name failure he))
  | ok entries => exact .inr ⟨entries, rfl⟩

def Source.HasNumbers (source : Source) : Prop :=
  ∃ machine size pc, source.entryOf "machine" = .ok machine ∧
    intOr machine "memory_size" Bootstrap.largestMemory = .ok size ∧
    intOr machine "initial_pc" 0 = .ok pc

/-- Reading comes to a misshapen section, before it meets an error of the configuration. -/
def Source.Stumbles (source : Source) (misshapen : String → Prop) : Prop :=
  misshapen "machine" ∨
    (source.HasNumbers ∧ (misshapen "trace" ∨ misshapen "logging" ∨ misshapen "image"))

theorem readInteger_error {value : Value} (h : readInteger value = .error failure) :
    failure = .config (.invalidInteger value) := by
  unfold readInteger at h
  split at h
  · cases h
  · split at h
    · cases h
    · cases h
      rfl
  · cases h
    rfl

theorem intOr_error {key : String} {fallback : Int}
    (h : intOr entry key fallback = .error failure) : ¬failure.Escapes := by
  unfold intOr at h
  split at h
  · rw [readInteger_error h]
    exact id
  · cases h

/-- A source fails with the failure of the part at which reading it stops. -/
theorem ofSource_eq_error_iff :
    ofSource source = .error failure ↔
      source.entryOf "machine" = .error failure ∨
      ∃ machine, source.entryOf "machine" = .ok machine ∧
        (intOr machine "memory_size" Bootstrap.largestMemory = .error failure ∨
        ∃ size, intOr machine "memory_size" Bootstrap.largestMemory = .ok size ∧
          (intOr machine "initial_pc" 0 = .error failure ∨
          ∃ pc, intOr machine "initial_pc" 0 = .ok pc ∧
            (source.entryOf "trace" = .error failure ∨
            ∃ trace, source.entryOf "trace" = .ok trace ∧
              (source.entryOf "logging" = .error failure ∨
              ∃ logging, source.entryOf "logging" = .ok logging ∧
                source.entryOf "image" = .error failure)))) := by
  simp only [ofSource, except_bind_eq_error_iff, pure, Except.pure, reduceCtorEq, and_false,
    exists_const, or_false]

theorem ofSource_escapes_iff (hs : source.Sectioned) :
    ofSource source = .error failure ∧ failure.Escapes ↔
      failure = .sectionShape ∧
        source.Stumbles fun name => source.entryOf name = .error .sectionShape := by
  rw [ofSource_eq_error_iff]
  constructor
  · rintro ⟨h, he⟩
    obtain h | ⟨machine, hm, h | ⟨size, hsize, h | ⟨pc, hpc, h⟩⟩⟩ := h
    · cases hs _ _ h
      exact ⟨rfl, .inl h⟩
    · exact absurd he (intOr_error h)
    · exact absurd he (intOr_error h)
    · have hnumbers : source.HasNumbers := ⟨machine, size, pc, hm, hsize, hpc⟩
      obtain h | ⟨-, -, h | ⟨-, -, h⟩⟩ := h
      all_goals
        cases hs _ _ h
        exact ⟨rfl, .inr ⟨hnumbers, by simp only [h, true_or, or_true]⟩⟩
  · rintro ⟨rfl, h⟩
    refine ⟨?_, trivial⟩
    obtain h | ⟨⟨machine, size, pc, hm, hsize, hpc⟩, h⟩ := h
    · exact .inl h
    · refine .inr ⟨machine, hm, .inr ⟨size, hsize, .inr ⟨pc, hpc, ?_⟩⟩⟩
      obtain ht | ⟨trace, ht⟩ := hs.misshapen_or_read "trace"
      · exact .inl ht
      obtain hl | ⟨logging, hl⟩ := hs.misshapen_or_read "logging"
      · exact .inr ⟨trace, ht, .inl hl⟩
      simp only [ht, hl, reduceCtorEq, false_or] at h
      exact .inr ⟨trace, ht, .inr ⟨logging, hl, h⟩⟩

section Values

/-- Something is given for the section that is not a mapping. -/
def Misshapen (root : List (Value × Value)) (name : String) : Prop :=
  ∃ value, Value.get? root name = some value ∧ value.truthy ∧ ∀ entries, value ≠ .mapping entries

theorem sectionEntries_error_iff {root : List (Value × Value)} {name : String} :
    sectionEntries root name = .error failure ↔ failure = .sectionShape ∧ Misshapen root name := by
  unfold sectionEntries Misshapen
  cases Value.get? root name with
  | none => simp
  | some value =>
    by_cases ht : value.truthy = true
    · cases value <;> simp [ht, @eq_comm _ ConfigFailure.sectionShape]
    · simp [ht]

theorem ofEntries_entryOf_error_iff {root : List (Value × Value)} {name : String} :
    (Source.ofEntries root).entryOf name = .error failure ↔
      failure = .sectionShape ∧ Misshapen root name := by
  rw [← sectionEntries_error_iff]
  change (sectionEntries root name).map Value.get? = .error failure ↔ _
  cases sectionEntries root name <;> simp [Except.map]

theorem ofEntries_sectioned (root : List (Value × Value)) : (Source.ofEntries root).Sectioned :=
  fun _ _ h => (ofEntries_entryOf_error_iff.mp h).1

/-- Reading a value fails with anything else than an error of the configuration exactly if it comes
to a section that is given but no mapping. -/
theorem ofValue_escapes_iff (value : Value) :
    ofValue value = .error failure ∧ failure.Escapes ↔ failure = .sectionShape ∧
      ∃ root, value = .mapping root ∧ (Source.ofEntries root).Stumbles (Misshapen root) := by
  cases value with
  | mapping root =>
    change ofSource (.ofEntries root) = .error failure ∧ failure.Escapes ↔ _
    rw [ofSource_escapes_iff (ofEntries_sectioned root)]
    simp [ofEntries_entryOf_error_iff]
  | _ =>
    constructor
    · rintro ⟨h, he⟩
      cases h
      exact absurd he id
    · rintro ⟨-, root, h, -⟩
      cases h

end Values

section Documents

def IsText (content : List UInt8) : Prop := (String.fromUTF8? ⟨content.toArray⟩).isSome

instance : DecidablePred IsText := fun _ => inferInstanceAs (Decidable (_ = true))

/-- A text is a document or found to be malformed, and what is no text is not read. -/
structure Reliable (reader : DocumentReader) : Prop where
  text : ∀ content failure, IsText content → reader content = .error failure → failure = .malformed
  binary : ∀ content, ¬IsText content →
    reader content = .error .malformed ∨ reader content = .error .undecodable

variable {document : Document} {root : List (Value × Nat)} {name : String}

def MisshapenNode (document : Document) (root : List (Value × Nat)) (name : String) : Prop :=
  ∃ number, Value.get? root name = some number ∧ document.entries? number = none

theorem ofDocument_entryOf_error_iff :
    (Source.ofDocument document root).entryOf name = .error failure ↔
      failure = .sectionShape ∧ MisshapenNode document root name := by
  unfold Source.ofDocument MisshapenNode
  dsimp only
  cases Value.get? root name with
  | none => simp
  | some number =>
    cases hn : document.entries? number <;> simp [hn, @eq_comm _ ConfigFailure.sectionShape]

theorem ofDocument_sectioned : (Source.ofDocument document root).Sectioned :=
  fun _ _ h => (ofDocument_entryOf_error_iff.mp h).1

/-- What reading a content fails with, other than an error of the configuration. -/
inductive ContentEscape (reader : DocumentReader) (content : List UInt8) :
    ConfigFailure → Prop where
  | undecodable (hn : ¬IsText content) (hr : reader content = .error .undecodable) :
      ContentEscape reader content .undecodable
  | sectionShape {document : Document} {root : List (Value × Nat)}
      (hd : reader content = .ok document) (hr : document.entries? document.root = some root)
      (hs : (Source.ofDocument document root).Stumbles (MisshapenNode document root)) :
      ContentEscape reader content .sectionShape

theorem Reliable.error (h : Reliable reader) {problem : ReadFailure}
    (hr : reader content = .error problem) :
    problem = .malformed ∨ problem = .undecodable ∧ ¬IsText content := by
  by_cases ht : IsText content
  · exact .inl (h.text content problem ht hr)
  · rcases h.binary content ht with hm | hu
    · rw [hr] at hm
      cases hm
      exact .inl rfl
    · rw [hr] at hu
      cases hu
      exact .inr ⟨rfl, ht⟩

theorem ofContent_escapes_iff (h : Reliable reader) :
    ofContent reader path content = .error failure ∧ failure.Escapes ↔
      ContentEscape reader content failure := by
  unfold ofContent
  constructor
  · rintro ⟨hf, he⟩
    split at hf
    · next problem hr =>
      cases hf
      rcases h.error hr with rfl | ⟨rfl, hn⟩
      · exact absurd he id
      · exact .undecodable hn hr
    · next document hd =>
      split at hf
      · next root hr =>
        obtain ⟨rfl, hs⟩ := (ofSource_escapes_iff ofDocument_sectioned).mp ⟨hf, he⟩
        simp only [ofDocument_entryOf_error_iff, true_and] at hs
        exact .sectionShape hd hr hs
      · cases hf
        exact absurd he id
  · intro he
    cases he with
    | undecodable hn hr =>
      rw [hr]
      exact ⟨rfl, trivial⟩
    | sectionShape hd hr hs =>
      simp only [hd, hr]
      refine (ofSource_escapes_iff ofDocument_sectioned).mpr ⟨rfl, ?_⟩
      simpa only [ofDocument_entryOf_error_iff, true_and] using hs

end Documents

/-- What reading a file fails with, other than an error of the configuration.  Before its content
counts, the system has to be asked for it. -/
inductive FileEscape (reader : DocumentReader) (files : FileTree) (path : String) :
    ConfigFailure → Prop where
  | stray {stray : Text.Stray} (hs : Text.firstStray? path = some stray) :
      FileEscape reader files path (.target (.strayHalf stray))
  | nullCharacter (hs : Text.firstStray? path = none) (hn : path.contains '\x00') :
      FileEscape reader files path (.target .nullCharacter)
  | content {content : List UInt8} {failure : ConfigFailure} (hs : Text.firstStray? path = none)
      (hn : ¬path.contains '\x00') (hr : files.read (Text.bytes path) = .ok content)
      (hc : ContentEscape reader content failure) : FileEscape reader files path failure

theorem ofFile_escapes_iff (h : Reliable reader) :
    ofFile reader files path = .error failure ∧ failure.Escapes ↔
      FileEscape reader files path failure := by
  constructor
  · rintro ⟨hf, he⟩
    unfold ofFile at hf
    cases hs : Text.firstStray? path with
    | some stray =>
      rw [Value.text_stray hs] at hf
      cases hf
      exact .stray hs
    | none =>
      by_cases hn : path.contains '\x00' = true
      · rw [Value.text_null hs hn] at hf
        cases hf
        exact .nullCharacter hs hn
      · cases hr : files.read (Text.bytes path) with
        | error e =>
          rw [Value.text_target hs hn] at hf
          dsimp only [FileTree.readTarget] at hf
          rw [hr] at hf
          cases hf
          exact absurd he id
        | ok content =>
          change ofFile reader files path = .error failure at hf
          rw [ofFile_read hs hn hr] at hf
          exact .content hs hn hr ((ofContent_escapes_iff h).mp ⟨hf, he⟩)
  · intro he
    cases he with
    | stray hs =>
      rw [ofFile, Value.text_stray hs]
      exact ⟨rfl, trivial⟩
    | nullCharacter hs hn =>
      rw [ofFile, Value.text_null hs hn]
      exact ⟨rfl, trivial⟩
    | content hs hn hr hc =>
      rw [ofFile_read hs hn hr]
      exact (ofContent_escapes_iff h).mpr hc

/-- Reading a configuration ends with a configuration or with an error of it, but in these cases: it
comes to a section that is given but no mapping; the path has a stray half or a null character; or
the file is no text. -/
theorem unreported_failures (h : Reliable reader) (value : Value) (files : FileTree)
    (path : String) (failure : ConfigFailure) :
    (ofValue value = .error failure ∧ failure.Escapes ↔ failure = .sectionShape ∧
      ∃ root, value = .mapping root ∧ (Source.ofEntries root).Stumbles (Misshapen root)) ∧
    (ofFile reader files path = .error failure ∧ failure.Escapes ↔
      FileEscape reader files path failure) :=
  ⟨ofValue_escapes_iff value, ofFile_escapes_iff h⟩

def listed : List UInt8 := Text.bytes "machine: [1]"

def listedReader : DocumentReader := fun content =>
  if content = listed then
    .ok ⟨#[.mapping [(.text "machine", 1)], .list [2], .scalar (.int 1)], 0⟩
  else if IsText content then .error .malformed
  else .error .undecodable

theorem listedReader_binary (hn : ¬IsText content) :
    listedReader content = .error .undecodable := by
  have hother : content ≠ listed := by
    rintro rfl
    exact hn (by decide +kernel)
  rw [listedReader, if_neg hother, if_neg hn]

theorem listedReader_reliable : Reliable listedReader := by
  constructor
  · intro content failure ht hr
    rw [listedReader, if_pos ht] at hr
    split at hr
    · cases hr
    · cases hr
      rfl
  · exact fun content hn => .inr (listedReader_binary hn)

theorem listed_plain : ¬"c.yaml".contains '\x00' := Value.not_contains_null (by decide)

theorem unreported_failures_listed :
    Reliable listedReader ∧
      FileEscape listedReader ⟨[([Text.bytes "c.yaml"], .file listed)], []⟩ "c.yaml"
        .sectionShape := by
  obtain ⟨-, hfile⟩ := unreported_failures listedReader_reliable .null
    ⟨[([Text.bytes "c.yaml"], .file listed)], []⟩ "c.yaml" .sectionShape
  have hread : FileTree.read ⟨[([Text.bytes "c.yaml"], .file listed)], []⟩
      (Text.bytes "c.yaml") = .ok listed := by decide +kernel
  have hfails := ofFile_read (by decide +kernel) listed_plain hread listedReader
  exact ⟨listedReader_reliable, hfile.mp ⟨hfails.trans rfl, trivial⟩⟩

/-- A list for a section, a byte that is no text, and paths that no file can have. -/
theorem failures_escape :
    ofValue (.mapping [(.text "machine", .list [.int 1])]) = .error .sectionShape ∧
      ofFile listedReader ⟨[([Text.bytes "c.yaml"], .file [0xff])], []⟩ "c.yaml" =
        .error .undecodable ∧
      ofFile listedReader {} "\x00" = .error (.target .nullCharacter) ∧
      ofFile listedReader {} Image.strayPath =
        .error (.target (.strayHalf ⟨0xd800, 0, 1⟩)) ∧
      ConfigFailure.sectionShape.Escapes ∧ ConfigFailure.undecodable.Escapes ∧
      ∀ error, (ConfigFailure.target error).Escapes := by
  have hbinary : ¬IsText [0xff] := by decide +kernel
  have hread : FileTree.read ⟨[([Text.bytes "c.yaml"], .file [0xff])], []⟩
      (Text.bytes "c.yaml") = .ok [0xff] := by decide +kernel
  have hnull : "\x00".contains '\x00' := by
    rw [String.contains_char_eq]
    decide
  have hfails {files path failure} (he : FileEscape listedReader files path failure) :
      ofFile listedReader files path = .error failure :=
    ((ofFile_escapes_iff listedReader_reliable).mpr he).1
  have hundecodable := FileEscape.content (by decide +kernel) listed_plain hread
    (.undecodable hbinary (listedReader_binary hbinary))
  exact ⟨rfl, hfails hundecodable, hfails (.nullCharacter (by decide +kernel) hnull),
    hfails (.stray Image.strayPath_stray), trivial, trivial, fun _ => trivial⟩

end Config

end ByteMachine
