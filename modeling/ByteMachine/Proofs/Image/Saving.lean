import ByteMachine.Proofs.Files
import ByteMachine.Proofs.Image.Format

/-!
Saving an image creates one new file or changes nothing.  What has been saved is loaded again, if
the memory has the size of the image and the program counter lies inside it; and no file that exists
is ever changed.  A path with a stray half cannot be turned into bytes, so nothing is saved there.
-/

namespace ByteMachine.Image

variable {path : String} {content : List UInt8} {size : Int} {files saved : FileTree}
  {place : Value} {image : Image}

theorem encodeWord_eq_none {n : Int} (h : ¬(0 ≤ n ∧ n < 0x100000000)) : encodeWord n = none :=
  if_neg h

theorem encode_eq_none (h : ¬image.Encodable) : image.encode = none := by
  unfold Encodable at h
  by_cases hsize : Header.byteCount + image.size < 0x100000000
  · have hpc : encodeWord image.pc = none := encodeWord_eq_none fun hp => h ⟨hp, hsize⟩
    simp [encode, Header.toBytes?, header, hpc]
  · have hfile : encodeWord (Header.byteCount + image.size) = none := by
      apply encodeWord_eq_none
      omega
    simp [encode, Header.toBytes?, header, hfile]

/-- What loading a saved image gives. -/
def reloaded (image : Image) (size : Int) : Except LoadError Image :=
  if (image.size : Int) ≠ size then .error (.sizeMismatch image.size size)
  else if image.pc < size then .ok image
  else .error (.pcBeyond image.pc size)

theorem encode_words (h : image.Encodable) :
    ∃ content, image.encode = some content ∧ content.length = 16 + image.size ∧
      content.drop 16 = image.memory ∧ headerOf content = image.header := by
  obtain ⟨bytes, he, hl, hr⟩ := encode_ok h
  unfold Header.byteCount at hl
  refine ⟨_, he, by simp [hl, Image.size], ?_, ?_⟩
  · rw [← hl, List.drop_left]
  · have hlong : 16 ≤ (bytes ++ image.memory).length := by simp [hl]
    have hhead := ofBytes_take hlong
    rw [Header.byteCount, ← hl, List.take_left, hr] at hhead
    exact (Option.some.inj hhead).symm

theorem decode_saved (hl : content.length = 16 + image.size)
    (hd : content.drop 16 = image.memory) (hh : headerOf content = image.header) (path : String)
    (size : Int) : (decode path content size).2 = image.reloaded size := by
  have hmagic : (wordAt content 0 : Int) = Header.magicNumber := congrArg Header.magic hh
  have hsize : (wordAt content 8 : Int) = image.size := congrArg Header.memorySize hh
  have hpc : (wordAt content 12 : Int) = image.pc := congrArg Header.pc hh
  have hj := decode_judged path content size
  generalize (decode path content size).1 = notices at hj
  generalize (decode path content size).2 = result at hj ⊢
  unfold reloaded
  cases hj with
  | shortHeader h => omega
  | badMagic h hm => exact absurd (Int.ofNat_inj.mp hmagic) hm
  | sizeMismatch h hm hs =>
    rw [hsize] at hs ⊢
    rw [if_pos hs]
  | pcBeyond h hm hs hp =>
    rw [hsize] at hs
    rw [hpc] at hp ⊢
    rw [if_neg (not_not.mpr hs), if_neg (by omega)]
  | shortPayload h hm hs hp hl => omega
  | image h =>
    have hs := h.memorySize
    have hp := h.pc
    rw [hsize] at hs
    rw [hpc] at hp ⊢
    rw [if_neg (not_not.mpr hs), if_pos hp, hd, ← hs, Int.toNat_natCast, Image.size,
      List.take_length]

/-- A file has been created at a path at which there was none, with the image as its content.
Nothing else has changed. -/
structure Creates (files : FileTree) (path : String) (image : Image) (saved : FileTree) : Prop where
  absent : files.read (Text.bytes path) = .error .notFound
  created : ∃ place content, files.lookup place = none ∧
    saved.read (Text.bytes path) = .ok content ∧
    content.length = 16 + image.size ∧ saved.here = files.here ∧
    ∀ other, saved.lookup other =
      if other = place then some (.file content) else files.lookup other
  reloaded : ∀ size, (load saved (.text path) size).2 = image.reloaded size

/-- The ways in which saving can end: the result, and the files afterwards. -/
inductive Saving (files : FileTree) (path : String) (image : Image) :
    Except SaveError FileTree → FileTree → Prop where
  | unencodable (h : ¬image.Encodable) : Saving files path image (.error .header) files
  | stray (h : image.Encodable) {stray : Text.Stray} (hs : Text.firstStray? path = some stray) :
      Saving files path image (.error (.target (.strayHalf stray))) files
  | refused (h : image.Encodable) (hs : Text.firstStray? path = none)
      (hf : ∀ place name, ¬files.Fresh (Text.bytes path) place name)
      (error : FileError) : Saving files path image (.error (.file path error)) files
  | created (h : image.Encodable) (hs : Text.firstStray? path = none) {saved : FileTree}
      (hc : Creates files path image saved) : Saving files path image (.ok saved) saved

def filesAfter (files : FileTree) (place : Value) (image : Image) : FileTree :=
  (save files place image).2.toOption.getD files

theorem save_unencodable (h : ¬image.Encodable) (files : FileTree) (place : Value) :
    (save files place image).2 = .error .header := by
  simp only [save, encode_eq_none h]

theorem save_encoded {target : Target} (ht : place.target = .ok target)
    (he : image.encode = some content) (files : FileTree) :
    (save files place image).2 =
      (files.createTarget content target).mapError (.file place.shown ·) := by
  simp only [save, he, ht]

theorem save_refused {error : TargetError} (ht : place.target = .error error)
    (he : image.encode = some content) (files : FileTree) :
    (save files place image).2 = .error (.target error) := by
  simp only [save, he, ht]

theorem creates_fresh (ht : (Value.text path).target = .ok (.path (Text.bytes path)))
    (he : image.Encodable) {directory : Place} {name : FileName}
    (hf : files.Fresh (Text.bytes path) directory name) :
    ∃ content, image.encode = some content ∧
      Creates files path image (files.add (directory ++ [name]) (.file content)) := by
  obtain ⟨content, hc, hl, hd, hh⟩ := encode_words he
  have hread := FileTree.read_created hf content
  refine ⟨content, hc, ?_⟩
  constructor
  · exact FileTree.read_fresh hf
  · refine ⟨directory ++ [name], content, hf.free, hread, hl, rfl, ?_⟩
    exact FileTree.lookup_add (by simp) hf.free
  · intro size
    have hj := decode_saved hl hd hh (Value.text path).shown size
    have hl := congrArg Prod.snd (load_eq ht hread size)
    exact hl.trans hj

theorem filesAfter_ok (h : (save files place image).2 = .ok saved) :
    filesAfter files place image = saved := by
  rw [filesAfter, h]
  rfl

theorem filesAfter_error {e : SaveError} (h : (save files place image).2 = .error e) :
    filesAfter files place image = files := by
  rw [filesAfter, h]
  rfl

theorem save_saving (hp : ¬path.contains '\x00') (files : FileTree) (image : Image) :
    Saving files path image (save files (.text path) image).2
      (filesAfter files (.text path) image) := by
  by_cases he : image.Encodable
  case neg =>
    have hs := save_unencodable he files (.text path)
    rw [filesAfter_error hs, hs]
    exact .unencodable he
  obtain ⟨content, hc, -⟩ := encode_words he
  cases hs : Text.firstStray? path with
  | some stray =>
    have hsave := save_refused (Value.text_stray hs) hc files
    rw [filesAfter_error hsave, hsave]
    exact .stray he hs
  | none =>
    have ht := Value.text_target hs hp
    by_cases hf : ∃ directory name, files.Fresh (Text.bytes path) directory name
    · obtain ⟨directory, name, hf⟩ := hf
      obtain ⟨content, hc, hcreates⟩ := creates_fresh ht he hf
      have hsave := save_encoded ht hc files
      rw [FileTree.createTarget, FileTree.create_fresh hf] at hsave
      rw [filesAfter_ok hsave, hsave]
      exact .created he hs hcreates
    · have hsave := save_encoded ht hc files
      cases hx : files.create (Text.bytes path) content with
      | ok next =>
        obtain ⟨directory, name, hfresh, -⟩ := FileTree.create_eq_ok hx
        exact absurd ⟨directory, name, hfresh⟩ hf
      | error error =>
        rw [FileTree.createTarget, hx] at hsave
        rw [filesAfter_error hsave, hsave]
        exact .refused he hs (fun place name h => hf ⟨place, name, h⟩) error

/-- Whatever was found in the one tree is found in the other, and whatever could be read can still
be read, with the same content. -/
structure Keeps (files after : FileTree) : Prop where
  entries : ∀ place entry, files.lookup place = some entry → after.lookup place = some entry
  contents : ∀ path content, files.read path = .ok content → after.read path = .ok content

theorem Keeps.refl (files : FileTree) : Keeps files files :=
  ⟨fun _ _ h => h, fun _ _ h => h⟩

theorem Keeps.trans {after last : FileTree} (h : Keeps files after) (k : Keeps after last) :
    Keeps files last :=
  ⟨fun place entry hl => k.entries place entry (h.entries place entry hl),
    fun path content hr => k.contents path content (h.contents path content hr)⟩

theorem save_creates (h : (save files place image).2 = .ok saved) :
    ∃ path content, files.create path content = .ok saved := by
  by_cases he : image.Encodable
  case neg =>
    rw [save_unencodable he] at h
    cases h
  obtain ⟨content, hc, -⟩ := encode_words he
  cases ht : place.target with
  | error e =>
    have hs : (save files place image).2 = .error (.target e) := by simp only [save, hc, ht]
    rw [hs] at h
    cases h
  | ok target =>
    rw [save_encoded ht hc] at h
    cases target with
    | stream number => cases h
    | path path =>
      refine ⟨path, content, ?_⟩
      rw [FileTree.createTarget] at h
      cases hx : files.create path content with
      | error e =>
        rw [hx] at h
        cases h
      | ok next =>
        rw [hx] at h
        cases h
        rfl

theorem filesAfter_keeps (files : FileTree) (place : Value) (image : Image) :
    Keeps files (filesAfter files place image) := by
  cases hs : (save files place image).2 with
  | error e =>
    rw [filesAfter_error hs]
    exact .refl files
  | ok saved =>
    obtain ⟨path, content, hc⟩ := save_creates hs
    obtain ⟨directory, name, -, rfl⟩ := FileTree.create_eq_ok hc
    rw [filesAfter_ok hs]
    exact ⟨fun _ _ => FileTree.lookup_add_found, fun _ _ => FileTree.read_add⟩

def saveAll (files : FileTree) (attempts : List (Value × Image)) : FileTree :=
  attempts.foldl (fun files attempt => filesAfter files attempt.1 attempt.2) files

theorem saveAll_keeps (files : FileTree) (attempts : List (Value × Image)) :
    Keeps files (saveAll files attempts) := by
  induction attempts generalizing files with
  | nil => exact .refl files
  | cons attempt rest ih =>
    rw [saveAll, List.foldl_cons]
    exact (filesAfter_keeps files attempt.1 attempt.2).trans (ih _)

/-- Saving creates exactly one new file or changes nothing.  A file that has been created holds the
image, and it is loaded again with the size of the image if the program counter lies inside.  No
number of attempts to save changes what was there before. -/
theorem saving_is_all_or_nothing (hp : ¬path.contains '\x00') (files : FileTree) (image : Image) :
    Saving files path image (save files (.text path) image).2
        (filesAfter files (.text path) image) ∧
      ∀ attempts, Keeps files (saveAll files attempts) :=
  ⟨save_saving hp files image, saveAll_keeps files⟩

/-- An image whose program counter is beyond its memory is saved, but never loaded. -/
theorem saving_is_all_or_nothing_beyond :
    ¬"o.img".contains '\x00' ∧
      Saving {} "o.img" ⟨7, [1, 2]⟩ (save {} (.text "o.img") ⟨7, [1, 2]⟩).2
        (filesAfter {} (.text "o.img") ⟨7, [1, 2]⟩) ∧
      ∀ attempts, Keeps {} (saveAll {} attempts) := by
  have hp : ¬"o.img".contains '\x00' := Value.not_contains_null (by decide)
  exact ⟨hp, saving_is_all_or_nothing hp {} ⟨7, [1, 2]⟩⟩

/-- Half of a character, which stands for no byte. -/
def strayPath : String := String.ofList ((Text.ofCode? 0xd800).getD [])

theorem strayPath_plain : ¬strayPath.contains '\x00' :=
  Value.not_contains_null (by decide +kernel)

theorem strayPath_stray : Text.firstStray? strayPath = some ⟨0xd800, 0, 1⟩ := by decide +kernel

/-- A path without a null character at which saving fails neither for the header nor for the file.
-/
theorem stray_half_is_no_path :
    ¬strayPath.contains '\x00' ∧ ∃ error, (save {} (.text strayPath) ⟨0, [0]⟩).2 = .error error ∧
      error ≠ .header ∧ ∀ path e, error ≠ .file path e := by
  have he : Image.Encodable ⟨0, [0]⟩ := by
    unfold Encodable
    decide
  obtain ⟨content, hc, -⟩ := encode_words he
  exact ⟨strayPath_plain, _, save_refused (Value.text_stray strayPath_stray) hc {}, nofun, nofun⟩

end ByteMachine.Image
