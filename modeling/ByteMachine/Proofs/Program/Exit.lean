import ByteMachine.Proofs.Image.Saving
import ByteMachine.Proofs.Program.Runs

/-!
What the exit code of the program tells.  Preparation, the run and saving come one after the other,
and the code names the part that decided about the end.  Only a machine that has halted leaves a
file behind.
-/

namespace ByteMachine

open Program

variable {last : Machine} {config base : Config} {options : Options} {files after : FileTree}
  {console : Console} {outcome : Outcome} {budget size : Nat} {path : List UInt8}
  {place : Value} {status : Program.ExitStatus} {tools : Tools}

/-- The path that a value gives, if it counts as given and the system can be asked for it. -/
def Value.path? (value : Value) : Option (List UInt8) :=
  if value.truthy then
    match value.target with
    | .ok (.path path) => some path
    | _ => none
  else none

theorem Value.path?_eq_some : place.path? = some path ↔
    place.truthy = true ∧ place.target = .ok (.path path) := by
  unfold path?
  split
  · next ht =>
    rw [ht]
    split
    · next found hfound => simp [hfound]
    · next hother => simpa using hother path
  · next ht => simp [ht]

/-- The file holds the header of an image, and then all of the memory of the machine. -/
structure ImageOf (m : Machine) (content : List UInt8) : Prop where
  magic : Image.wordAt content 0 = 0x2017
  fileSize : Image.wordAt content 4 = 16 + m.bus.memorySize
  memorySize : Image.wordAt content 8 = m.bus.memorySize
  pc : Image.wordAt content 12 = m.cpu.pc
  memory : Bus.contents m.bus = .ok (content.drop 16) m.bus
  length : content.length = 16 + m.bus.memorySize

/-- Where a file can be created at the path, exactly this file has been, with an image of the
machine.  Where none can be, nothing has changed. -/
structure SavedAt (files after : FileTree) (path : List UInt8) (m : Machine) : Prop where
  created : ∀ directory name, files.Fresh path directory name →
    ∃ content, ImageOf m content ∧ after = files.add (directory ++ [name]) (.file content) ∧
      after.read path = .ok content
  refused : (∀ directory name, ¬files.Fresh path directory name) → after = files

namespace Program

def imageOf (m : Machine) : Image := ⟨m.cpu.pc, m.bus.cells⟩

theorem imageOf_encodable (h : last.Bounded size) (hz : size ≤ 128) :
    (imageOf last).Encodable := by
  have hpc := h.pc
  have hcells := h.cells
  unfold Image.Encodable imageOf Image.size Image.Header.byteCount
  dsimp only
  omega

theorem imageOf_content (h : last.Bounded size) (hz : size ≤ 128) {content : List UInt8}
    (he : (imageOf last).encode = some content) : ImageOf last content := by
  obtain ⟨encoded, hencode, hl, hd, hh⟩ := Image.encode_words (imageOf_encodable h hz)
  rw [he] at hencode
  cases hencode
  have hsize : (imageOf last).size = last.bus.memorySize := Bus.cells_length
  have hmagic := congrArg Image.Header.magic hh
  have hfile := congrArg Image.Header.size hh
  have hmemory := congrArg Image.Header.memorySize hh
  refine ⟨Int.ofNat_inj.mp hmagic, ?_, ?_, congrArg Image.Header.pc hh, ?_, by rw [hl, hsize]⟩
  · rw [← hsize]
    exact Int.ofNat_inj.mp hfile
  · rw [← hsize]
    exact Int.ofNat_inj.mp hmemory
  · rw [hd]
    exact h.poised.memory.holds.contents

section Saving

inductive Saved (files : FileTree) (config : Config) (last : Machine) (after : FileTree) :
    Prop where
  | skipped (ht : ¬config.save.truthy) (hf : after = files)
  | created (ht : config.save.truthy)
      (hs : (Image.save files config.save (imageOf last)).2 = .ok after)
  | refused {path : String} {error : FileError} (ht : config.save.truthy)
      (hs : (Image.save files config.save (imageOf last)).2 = .error (.file path error))
      (hf : after = files)

inductive SaveEnds (files : FileTree) (config : Config) (last : Machine) (outcome : Outcome) :
    Prop where
  | success (he : outcome.ending = .exit .success) (hs : Saved files config last outcome.files)
  | escaped {error : Image.SaveError} (ht : config.save.truthy)
      (hs : (Image.save files config.save (imageOf last)).2 = .error error)
      (hfile : ∀ path e, error ≠ .file path e)
      (he : outcome.ending = .escaped (.save error))

theorem saveHalted_ends (h : last.Poised) (config : Config) (outcome : Outcome) :
    SaveEnds outcome.files config last (saveHalted config outcome last) := by
  have himage : Machine.takeImage last = .ok (imageOf last) last :=
    takeImage_holds h.memory.holds
  obtain ⟨save, hsave⟩ : ∃ save, save = Image.save := ⟨_, rfl⟩
  unfold saveHalted
  rw [← hsave]
  dsimp only
  by_cases ht : config.save.truthy
  · rw [if_pos ht, himage]
    dsimp only
    rcases hx : save outcome.files config.save (imageOf last) with ⟨notices, result⟩
    have hresult : (Image.save outcome.files config.save (imageOf last)).2 = result := by
      rw [← hsave, hx]
    rcases result with (_ | error | ⟨path, error⟩) | saved
    · exact .escaped ht hresult nofun rfl
    · exact .escaped ht hresult nofun rfl
    · exact .success rfl (.refused ht hresult rfl)
    · exact .success rfl (.created ht hresult)
  · rw [if_neg ht]
    exact .success rfl (.skipped ht rfl)

theorem SaveEnds.saved (h : SaveEnds files config last outcome)
    (he : outcome.ending = .exit status) :
    status = .success ∧ Saved files config last outcome.files := by
  cases h with
  | success hsuccess hs =>
    rw [he] at hsuccess
    cases hsuccess
    exact ⟨rfl, hs⟩
  | escaped _ _ _ hescaped =>
    rw [he] at hescaped
    cases hescaped

section Target

variable {target : Target} (h : last.Bounded size) (hz : size ≤ 128)
include h hz

theorem save_asked (ht : place.target = .ok target) {error : Image.SaveError}
    (hs : (Image.save files place (imageOf last)).2 = .error error) :
    ∃ path e, error = .file path e := by
  obtain ⟨content, hc, -⟩ := Image.encode_words (imageOf_encodable h hz)
  rw [Image.save_encoded ht hc] at hs
  cases hx : files.createTarget content target with
  | ok next =>
    rw [hx] at hs
    cases hs
  | error e =>
    rw [hx] at hs
    cases hs
    exact ⟨_, e, rfl⟩

theorem save_fresh (ht : place.target = .ok (.path path)) {directory : Place} {name : FileName}
    (hf : files.Fresh path directory name) :
    ∃ content, ImageOf last content ∧
      (Image.save files place (imageOf last)).2 =
        .ok (files.add (directory ++ [name]) (.file content)) := by
  obtain ⟨content, hc, -⟩ := Image.encode_words (imageOf_encodable h hz)
  refine ⟨content, imageOf_content h hz hc, ?_⟩
  rw [Image.save_encoded ht hc, FileTree.createTarget, FileTree.create_fresh hf]
  rfl

theorem SaveEnds.ending (he : SaveEnds files config last outcome)
    (hp : config.save.truthy → ∃ target, config.save.target = .ok target) :
    outcome.ending = .exit .success := by
  cases he with
  | success he => exact he
  | escaped ht hs hfile =>
    obtain ⟨target, htarget⟩ := hp ht
    obtain ⟨shown, e, rfl⟩ := save_asked h hz htarget hs
    exact absurd rfl (hfile shown e)

end Target

theorem fresh_of_saved {image : Image} (hs : (Image.save files place image).2 = .ok after) :
    ∃ path directory name, place.target = .ok (.path path) ∧
      files.Fresh path directory name := by
  cases hc : image.encode with
  | none =>
    simp only [Image.save, hc] at hs
    cases hs
  | some content =>
    cases ht : place.target with
    | error e =>
      rw [Image.save_refused ht hc] at hs
      cases hs
    | ok target =>
      rw [Image.save_encoded ht hc] at hs
      cases target with
      | stream number => cases hs
      | path path =>
        rw [FileTree.createTarget] at hs
        cases hx : files.create path content with
        | error e =>
          rw [hx] at hs
          cases hs
        | ok next =>
          obtain ⟨directory, name, hf, -⟩ := FileTree.create_eq_ok hx
          exact ⟨path, directory, name, rfl, hf⟩

theorem Saved.savedAt (h : Saved files config last after) (hl : last.Bounded size)
    (hz : size ≤ 128) (hp : config.save.path? = some path) : SavedAt files after path last := by
  obtain ⟨ht, htarget⟩ := Value.path?_eq_some.mp hp
  constructor
  · intro directory name hf
    obtain ⟨content, himage, hsave⟩ := save_fresh hl hz htarget hf
    refine ⟨content, himage, ?_⟩
    cases h with
    | skipped hskip => exact absurd ht hskip
    | created _ hs =>
      rw [hsave] at hs
      cases hs
      exact ⟨rfl, FileTree.read_created hf content⟩
    | refused _ hs =>
      rw [hsave] at hs
      cases hs
  · intro hstale
    cases h with
    | skipped hskip => exact absurd ht hskip
    | created _ hs =>
      obtain ⟨found, directory, name, hfound, hf⟩ := fresh_of_saved hs
      rw [htarget] at hfound
      cases hfound
      exact absurd hf (hstale directory name)
    | refused _ _ hfiles => exact hfiles

theorem Saved.unnamed (h : Saved files config last after) (hp : config.save.path? = none) :
    after = files := by
  cases h with
  | skipped _ hfiles | refused _ _ hfiles => exact hfiles
  | created ht hs =>
    obtain ⟨path, -, -, htarget, -⟩ := fresh_of_saved hs
    rw [Value.path?_eq_some.mpr ⟨ht, htarget⟩] at hp
    cases hp

theorem Saved.keeps (h : Saved files config last after) : Image.Keeps files after := by
  cases h with
  | skipped _ hfiles | refused _ _ hfiles =>
    rw [hfiles]
    exact .refl files
  | created _ hs =>
    have hkeeps := Image.filesAfter_keeps files config.save (imageOf last)
    rwa [Image.filesAfter_ok hs] at hkeeps

end Saving

/-- All that the program may leave of a machine that has halted: no file that exists is changed, and
one is created only at the path that has been named. -/
structure Leaves (files after : FileTree) (named : Option (List UInt8)) (last : Machine) :
    Prop where
  keeps : Image.Keeps files after
  unnamed : named = none → after = files
  named : ∀ path, named = some path → SavedAt files after path last

section Exit

variable (h : Runs tools options files console budget base last)
include h

theorem Runs.exit_fault (hs : last.status = .faulted) :
    (run tools options files console budget).ending = .exit .fault := by
  obtain ⟨size, -, -, hsettles⟩ := h.settles
  cases hsettles with
  | faulted _ he => exact he
  | unfinished hr =>
    rw [hs] at hr
    cases hr
  | halted hh =>
    rw [hs] at hh
    cases hh

theorem Runs.exit_success (hs : last.status = .halted)
    (hp : (options.adjust base).save.truthy →
      ∃ target, (options.adjust base).save.target = .ok target) :
    (run tools options files console budget).ending = .exit .success := by
  obtain ⟨size, hz, hl, hsettles⟩ := h.settles
  cases hsettles with
  | halted _ start hf he =>
    have hends := saveHalted_ends hl.poised (options.adjust base) start
    rw [hf, ← he] at hends
    exact hends.ending hl hz hp
  | unfinished hr =>
    rw [hs] at hr
    cases hr
  | faulted hf =>
    rw [hs] at hf
    cases hf

/-- The exit status of a program that has been prepared tells how its run has ended. -/
theorem Runs.exit (he : (run tools options files console budget).ending = .exit status) :
    status = .fault ∧ last.status = .faulted ∧
      (run tools options files console budget).files = files ∨
      status = .success ∧ last.status = .halted ∧
        Leaves files (run tools options files console budget).files
          (options.adjust base).save.path? last := by
  obtain ⟨size, hz, hl, hsettles⟩ := h.settles
  generalize run tools options files console budget = outcome at he hsettles ⊢
  cases hsettles with
  | unfinished _ hending =>
    rw [he] at hending
    cases hending
  | faulted hs hending hf =>
    rw [he] at hending
    cases hending
    exact .inl ⟨rfl, hs, hf⟩
  | halted hs start hf houtcome =>
    have hends := saveHalted_ends hl.poised (options.adjust base) start
    rw [hf, ← houtcome] at hends
    obtain ⟨hstatus, hsaved⟩ := hends.saved he
    exact .inr ⟨hstatus, hs, hsaved.keeps, hsaved.unnamed, fun path => hsaved.savedAt hl hz⟩

theorem Runs.code (he : (run tools options files console budget).ending = .exit status) :
    status.code ≠ 1 ∧ (status.code = 2 ↔ last.status = .faulted) ∧
      (status.code = 0 ↔ last.status = .halted) := by
  rcases h.exit he with ⟨rfl, hs, -⟩ | ⟨rfl, hs, -⟩
  · rw [hs]
    decide
  · rw [hs]
    decide

end Exit

section Codes

variable (he : (run tools options files console budget).ending = .exit status)
include he

theorem Unprepared.exit (h : Unprepared tools.reader options files) : status = .loadFailure := by
  have hending := (h.refused he).ending
  rw [he] at hending
  cases hending
  rfl

theorem runs_of_exit (hc : status.code ≠ 1) :
    ∃ base last, Runs tools options files console budget base last := by
  rcases unprepared_or_prepared tools options files console with hu | ⟨base, machine, hp⟩
  · obtain rfl := hu.exit he
    exact absurd rfl hc
  · obtain ⟨last, h⟩ := hp.runs budget
    exact ⟨base, last, h⟩

theorem code_one_iff : status.code = 1 ↔ Unprepared tools.reader options files := by
  constructor
  · intro hc
    rcases unprepared_or_prepared tools options files console with hu | ⟨base, machine, hp⟩
    · exact hu
    · obtain ⟨last, h⟩ := hp.runs budget
      exact absurd hc (h.code he).1
  · intro hu
    obtain rfl := hu.exit he
    rfl

theorem code_two_iff : status.code = 2 ↔
    ∃ base last, Runs tools options files console budget base last ∧ last.status = .faulted := by
  constructor
  · intro hc
    obtain ⟨base, last, h⟩ := runs_of_exit he (by rw [hc]; decide)
    exact ⟨base, last, h, (h.code he).2.1.mp hc⟩
  · rintro ⟨base, last, h, hs⟩
    exact (h.code he).2.1.mpr hs

theorem code_zero_iff : status.code = 0 ↔
    ∃ base last, Runs tools options files console budget base last ∧ last.status = .halted := by
  constructor
  · intro hc
    obtain ⟨base, last, h⟩ := runs_of_exit he (by rw [hc]; decide)
    exact ⟨base, last, h, (h.code he).2.2.mp hc⟩
  · rintro ⟨base, last, h, hs⟩
    exact (h.code he).2.2.mpr hs

theorem files_of_fault (hc : status.code = 2) :
    (run tools options files console budget).files = files := by
  obtain ⟨base, last, h⟩ := runs_of_exit he (by rw [hc]; decide)
  rcases h.exit he with ⟨-, -, hf⟩ | ⟨rfl, -⟩
  · exact hf
  · cases hc

theorem Runs.leaves {last : Machine} {base : Config}
    (h : Runs tools options files console budget base last) (hc : status.code = 0) :
    Leaves files (run tools options files console budget).files
      (options.adjust base).save.path? last := by
  rcases h.exit he with ⟨rfl, -⟩ | ⟨-, -, hleaves⟩
  · cases hc
  · exact hleaves

end Codes

end Program

/-- The exit code tells what has happened, and with it what can have been touched.  The program ends
with 1 exactly if something it needs is missing or wrong, and then nothing but notices has been
written and nothing has been read from the terminal; with 2 exactly if the machine faults, and then
no file has been touched; with 0 exactly if the machine halts, and then its image is in one new file
or all files are as they were.  A path to save at on the command line
goes before the one in the configuration.  A machine that faults or halts does end the program,
unless it is to be saved where nothing can be asked for. -/
theorem exit_code_tells_what_happened (tools : Tools) (options : Options) (files : FileTree)
    (console : Console) (budget : Nat) :
    let outcome := run tools options files console budget
    (∀ base last, Runs tools options files console budget base last →
      (last.status = .faulted → outcome.ending = .exit .fault) ∧
      (last.status = .halted →
        ((options.adjust base).save.truthy →
          ∃ target, (options.adjust base).save.target = .ok target) →
        outcome.ending = .exit .success)) ∧
    ∀ status, outcome.ending = .exit status →
      (status.code = 1 ↔ Unprepared tools.reader options files) ∧
      (status.code = 2 ↔
        ∃ base last, Runs tools options files console budget base last ∧ last.status = .faulted) ∧
      (status.code = 0 ↔
        ∃ base last, Runs tools options files console budget base last ∧ last.status = .halted) ∧
      (status.code = 1 →
        (∃ journal, outcome.console = { console with journal }) ∧ outcome.files = files) ∧
      (status.code = 2 → outcome.files = files) ∧
      (status.code = 0 → ∀ base last, Runs tools options files console budget base last →
        Leaves files outcome.files
          ((options.save.value?.map Value.text).getD base.save).path? last) := by
  intro outcome
  refine ⟨fun base last h => ⟨h.exit_fault, h.exit_success⟩, fun status he => ?_⟩
  refine ⟨code_one_iff he, code_two_iff he, code_zero_iff he, fun hc => ?_, files_of_fault he,
    fun hc base last h => h.leaves he hc⟩
  have hrefused := ((code_one_iff he).mp hc).refused he
  exact ⟨hrefused.console, hrefused.files⟩

def emptyImage : FileTree where
  entries := [([Text.bytes "a"],
    .file ([0x17, 0x20, 0, 0, 0x90, 0, 0, 0, 0x80, 0, 0, 0, 0, 0, 0, 0] ++ List.replicate 128 0))]

set_option maxRecDepth 2000 in
theorem exit_code_tells_what_happened_empty :
    let options : Options := { load := .text "a", save := .text "o" }
    let outcome := run dumpingTools options emptyImage {} 1
    outcome.ending = .exit .success ∧
      ∃ last content, last.status = .halted ∧ ImageOf last content ∧
        outcome.files = emptyImage.add [Text.bytes "o"] (.file content) := by
  intro options outcome
  have hb : basis dumpingTools.reader emptyImage options = .ok {} := rfl
  have hl : threshold? (options.adjust {}).level = some 30 := rfl
  have hload : (options.adjust {}).load = .text "a" := rfl
  have hread : emptyImage.read (Text.bytes "a") = .ok ([0x17, 0x20, 0, 0, 0x90, 0, 0, 0, 0x80, 0,
      0, 0, 0, 0, 0, 0] ++ List.replicate 128 0) := by decide +kernel
  have hi : ((options.adjust {}).initialImage emptyImage).2 = .ok ⟨0, List.replicate 128 0⟩ := by
    have hnamed : (options.adjust {}).load.truthy = true := rfl
    rw [initialImage_eq rfl, if_pos hnamed, hload,
      load_text (by decide +kernel) (Value.not_contains_null (by decide)), hread]
    rfl
  obtain ⟨machine, hp, hshows⟩ := prepared_of_image hb hl hi {}
  obtain ⟨last, hstep, hlast⟩ := step_shows hshows
  have hsuspend : ((⟨0, List.replicate 128 0⟩ : Image).start {}).memory[0]? = some 0 := rfl
  have hhalted : last.status = .halted :=
    hlast.status.trans (Flat.step_stops rfl rfl hsuspend (.inl rfl)).2.1
  have hstopped : last.status ≠ .running := by
    rw [hhalted]
    decide
  have hruns : Runs dumpingTools options emptyImage {} 1 {} last :=
    .intro hp rfl (.step hshows.status hstep rfl (.stopped hstopped))
  obtain ⟨hends, hcode⟩ := exit_code_tells_what_happened dumpingTools options emptyImage {} 1
  have htarget : (options.adjust {}).save.target = .ok (.path (Text.bytes "o")) :=
    Value.text_target (by decide +kernel) (Value.not_contains_null (by decide))
  have hexit := (hends {} last hruns).2 hhalted fun _ => ⟨_, htarget⟩
  refine ⟨hexit, last, ?_⟩
  have hleaves := (hcode .success hexit).2.2.2.2.2 rfl {} last hruns
  have hbytes : Text.bytes "o" = [111] := by decide +kernel
  have hfresh : emptyImage.Fresh (Text.bytes "o") [] (Text.bytes "o") := by
    rw [hbytes]
    refine ⟨?_, ?_, ?_, ?_, ?_, ?_⟩ <;> decide +kernel
  have hnamed := Value.path?_eq_some.mpr ⟨rfl, htarget⟩
  obtain ⟨content, himage, hfiles, -⟩ := (hleaves.named _ hnamed).created [] _ hfresh
  exact ⟨content, hhalted, himage, hfiles⟩

end ByteMachine
