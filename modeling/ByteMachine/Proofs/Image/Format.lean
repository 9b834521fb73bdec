import ByteMachine.Proofs.Image.Encoding

/-!
The format of image files as a property of their bytes.  Reading accepts exactly the files of this
format; any other file is refused for the first of its faults.
-/

namespace ByteMachine.Image

variable {path : String} {raw content other : List UInt8} {size : Int} {files : FileTree}
  {place : Value}

/-- The number that four bytes of a file make up, the lowest byte first. -/
def wordAt (content : List UInt8) (offset : Nat) : Nat :=
  ((content.drop offset).take 4).foldr (fun byte n => byte.toNat + 256 * n) 0

/-- A file that holds an image for a memory of the given size. -/
structure Acceptable (content : List UInt8) (size : Int) : Prop where
  header : 16 ≤ content.length
  magic : wordAt content 0 = 0x2017
  memorySize : wordAt content 8 = size
  pc : (wordAt content 12 : Int) < size
  payload : 16 + size ≤ content.length

/-- The size field of the header should tell the size of the file, but nothing depends on it. -/
def sizeWarning (content : List UInt8) : List Notice :=
  if wordAt content 4 = 16 + wordAt content 8 then []
  else [.imageSizeField (wordAt content 4) (16 + wordAt content 8)]

/-- What is reported of a file and what becomes of it.  The checks are made in the order of the
cases, and each case is the first that fails. -/
inductive Verdict (path : String) (content : List UInt8) (size : Int) :
    List Notice → Except LoadError Image → Prop where
  | shortHeader (h : content.length < 16) :
      Verdict path content size [] (.error (.shortHeader path content.length))
  | badMagic (h : 16 ≤ content.length) (hm : wordAt content 0 ≠ 0x2017) :
      Verdict path content size [] (.error (.badMagic (wordAt content 0)))
  | sizeMismatch (h : 16 ≤ content.length) (hm : wordAt content 0 = 0x2017)
      (hs : (wordAt content 8 : Int) ≠ size) :
      Verdict path content size [] (.error (.sizeMismatch (wordAt content 8) size))
  | pcBeyond (h : 16 ≤ content.length) (hm : wordAt content 0 = 0x2017)
      (hs : wordAt content 8 = size) (hp : size ≤ wordAt content 12) :
      Verdict path content size [] (.error (.pcBeyond (wordAt content 12) size))
  | shortPayload (h : 16 ≤ content.length) (hm : wordAt content 0 = 0x2017)
      (hs : wordAt content 8 = size) (hp : wordAt content 12 < size)
      (hl : content.length < 16 + size) :
      Verdict path content size (sizeWarning content)
        (.error (.shortPayload path (content.length - 16) size))
  | image (h : Acceptable content size) :
      Verdict path content size (sizeWarning content)
        (.ok ⟨wordAt content 12, (content.drop 16).take size.toNat⟩)

theorem exists_word (content : List UInt8) (h : 4 ≤ content.length) :
    ∃ a b c d rest, content = a :: b :: c :: d :: rest := by
  rcases content with _ | ⟨a, _ | ⟨b, _ | ⟨c, _ | ⟨d, rest⟩⟩⟩⟩
  case cons.cons.cons.cons => exact ⟨a, b, c, d, rest, rfl⟩
  all_goals simp at h

theorem decodeWord_eq (a b c d : UInt8) (before rest : List UInt8) :
    decodeWord a b c d = wordAt (before ++ a :: b :: c :: d :: rest) before.length := by
  simp only [wordAt, decodeWord, List.drop_left, List.take_succ_cons, List.take_zero,
    List.foldr_cons, List.foldr_nil]
  omega

def headerOf (content : List UInt8) : Header :=
  ⟨wordAt content 0, wordAt content 4, wordAt content 8, wordAt content 12⟩

theorem ofBytes_take (h : 16 ≤ content.length) :
    Header.ofBytes? (content.take Header.byteCount) = some (headerOf content) := by
  obtain ⟨a, b, c, d, rest, rfl⟩ := exists_word content (by omega)
  obtain ⟨e, f, g, i, rest, rfl⟩ := exists_word rest (by simp at h; omega)
  obtain ⟨j, k, l, m, rest, rfl⟩ := exists_word rest (by simp at h; omega)
  obtain ⟨n, o, p, q, rest, rfl⟩ := exists_word rest (by simp at h; omega)
  have hm := decodeWord_eq a b c d []
    (e :: f :: g :: i :: j :: k :: l :: m :: n :: o :: p :: q :: rest)
  have hz := decodeWord_eq e f g i [a, b, c, d] (j :: k :: l :: m :: n :: o :: p :: q :: rest)
  have hs := decodeWord_eq j k l m [a, b, c, d, e, f, g, i] (n :: o :: p :: q :: rest)
  have hp := decodeWord_eq n o p q [a, b, c, d, e, f, g, i, j, k, l, m] rest
  simp only [Header.byteCount, List.take_succ_cons, List.take_zero, Header.ofBytes?, hm, hz, hs, hp]
  rfl

theorem ofBytes_short {bytes : List UInt8} (h : bytes.length < 16) :
    Header.ofBytes? bytes = none := by
  unfold Header.ofBytes?
  split
  · simp at h
  · rfl

theorem decode_short (h : content.length < 16) :
    decode path content size = ([], .error (.shortHeader path content.length)) := by
  have hall : content.take Header.byteCount = content := by
    rw [Header.byteCount, List.take_of_length_le (Nat.le_of_lt h)]
  rw [decode, hall, ofBytes_short h]

theorem decode_refused {e : LoadError} (h : 16 ≤ content.length)
    (hc : checkHeader (headerOf content) size = .error e) :
    decode path content size = ([], .error e) := by
  rw [decode, ofBytes_take h]
  simp only [hc]

/-- Once the header has been accepted, the payload decides. -/
theorem decode_accepted (h : 16 ≤ content.length) (hs : wordAt content 8 = size)
    (hc : checkHeader (headerOf content) size = .ok ()) :
    decode path content size = (sizeWarning content,
      if content.length < 16 + size then .error (.shortPayload path (content.length - 16) size)
      else .ok ⟨wordAt content 12, (content.drop 16).take size.toNat⟩) := by
  have hwarning : headerNotices (headerOf content) = sizeWarning content := by
    simp only [headerNotices, sizeWarning, headerOf, Header.byteCount]
    norm_cast
  have hshort : (((content.drop 16).take (wordAt content 8)).length : Int) < wordAt content 8 ↔
      (content.length : Int) < 16 + wordAt content 8 := by
    rw [List.length_take, List.length_drop]
    omega
  subst hs
  rw [decode, ofBytes_take h]
  simp only [hc, hwarning]
  simp only [headerOf, Header.byteCount, Int.toNat_natCast, hshort]
  congr 1
  split
  · next hl =>
    rw [List.length_take, List.length_drop, Nat.min_eq_right (by omega)]
  · rfl

theorem decode_judged (path : String) (content : List UInt8) (size : Int) :
    Verdict path content size (decode path content size).1 (decode path content size).2 := by
  by_cases h : 16 ≤ content.length
  case neg =>
    rw [decode_short (by omega)]
    exact .shortHeader (by omega)
  by_cases hm : wordAt content 0 = 0x2017
  case neg =>
    have hc : checkHeader (headerOf content) size = .error (.badMagic (wordAt content 0)) :=
      if_pos fun he => hm (Int.ofNat_inj.mp he)
    rw [decode_refused h hc]
    exact .badMagic h hm
  have hmagic : (headerOf content).magic = Header.magicNumber := congrArg Nat.cast hm
  by_cases hs : wordAt content 8 = size
  case neg =>
    have hc : checkHeader (headerOf content) size =
        .error (.sizeMismatch (wordAt content 8) size) := by
      rw [checkHeader, if_neg (not_not.mpr hmagic)]
      exact if_pos hs
    rw [decode_refused h hc]
    exact .sizeMismatch h hm hs
  have hmemory : (headerOf content).memorySize = size := hs
  by_cases hp : wordAt content 12 < size
  case neg =>
    have hc : checkHeader (headerOf content) size =
        .error (.pcBeyond (wordAt content 12) size) := by
      rw [checkHeader, if_neg (not_not.mpr hmagic), if_neg (not_not.mpr hmemory), ← hs]
      exact if_pos (by simp only [headerOf]; omega)
    rw [decode_refused h hc]
    exact .pcBeyond h hm hs (by omega)
  have hc : checkHeader (headerOf content) size = .ok () := by
    rw [checkHeader, if_neg (not_not.mpr hmagic), if_neg (not_not.mpr hmemory)]
    exact if_neg (by simp only [headerOf]; omega)
  rw [decode_accepted h hs hc]
  by_cases hl : content.length < 16 + size
  · rw [if_pos hl]
    exact .shortPayload h hm hs hp hl
  · rw [if_neg hl]
    exact .image ⟨h, hm, hs, hp, by omega⟩

theorem Verdict.image_iff {notices : List Notice} {result : Except LoadError Image}
    (h : Verdict path content size notices result) :
    (∃ image, result = .ok image) ↔ Acceptable content size := by
  cases h with
  | image h => exact ⟨fun _ => h, fun _ => ⟨_, rfl⟩⟩
  | shortHeader hl => exact ⟨by simp, fun ha => absurd ha.header (by omega)⟩
  | badMagic _ hm => exact ⟨by simp, fun ha => absurd ha.magic hm⟩
  | sizeMismatch _ _ hs => exact ⟨by simp, fun ha => absurd ha.memorySize hs⟩
  | pcBeyond _ _ _ hp => exact ⟨by simp, fun ha => absurd ha.pc (by omega)⟩
  | shortPayload _ _ _ _ hl => exact ⟨by simp, fun ha => absurd ha.payload (by omega)⟩

/-- The other file has the same bytes up to the end of the payload, but for its size field. -/
structure Agree (content other : List UInt8) (size : Int) : Prop where
  payload : 16 + size ≤ other.length
  bytes : ∀ i : Nat, i < 16 + size → i < 4 ∨ 8 ≤ i → other[i]? = content[i]?

theorem slice_congr {start count : Nat}
    (h : ∀ i, start ≤ i → i < start + count → other[i]? = content[i]?) :
    (other.drop start).take count = (content.drop start).take count := by
  apply List.ext_getElem?
  intro i
  rw [List.getElem?_take, List.getElem?_take, List.getElem?_drop, List.getElem?_drop]
  split
  · exact h (start + i) (by omega) (by omega)
  · rfl

theorem Agree.wordAt (h : Agree content other size) {start : Nat} (hs : start = 0 ∨ 8 ≤ start)
    (he : start + 4 ≤ 16 + size) : wordAt other start = wordAt content start := by
  rw [Image.wordAt, Image.wordAt, slice_congr fun i hi hl => h.bytes i (by omega) (by omega)]

theorem Agree.acceptable (h : Agree content other size) (ha : Acceptable content size) :
    Acceptable other size := by
  have hpc := ha.pc
  have hpayload := h.payload
  constructor
  · omega
  · rw [h.wordAt (.inl rfl) (by omega), ha.magic]
  · rw [h.wordAt (.inr (by omega)) (by omega), ha.memorySize]
  · rw [h.wordAt (.inr (by omega)) (by omega)]
    exact hpc
  · exact hpayload

theorem Acceptable.decode (h : Acceptable content size) (path : String) :
    (decode path content size).2 =
      .ok ⟨wordAt content 12, (content.drop 16).take size.toNat⟩ := by
  have hj := decode_judged path content size
  obtain ⟨image, hi⟩ := hj.image_iff.mpr h
  generalize (Image.decode path content size).1 = notices at hj
  rw [hi] at hj ⊢
  cases hj
  rfl

theorem Agree.decode (h : Agree content other size) (ha : Acceptable content size)
    (path : String) : (decode path other size).2 = (decode path content size).2 := by
  have hpc := ha.pc
  rw [(h.acceptable ha).decode, ha.decode, h.wordAt (.inr (by omega)) (by omega),
    slice_congr fun i hi hl => h.bytes i (by omega) (by omega)]

theorem load_eq (ht : place.target = .ok (.path raw)) (hr : files.read raw = .ok content)
    (size : Int) :
    load files place size =
      (.loadingImage place.shown :: (decode place.shown content size).1,
        (decode place.shown content size).2) := by
  simp only [load, ht, FileTree.readTarget, hr]

/-- A file that can be read is loaded exactly if it holds an image of the format, and is refused for
the first of its faults otherwise.  Neither the size field nor what comes after the payload has any
influence on the image. -/
theorem load_follows_format (ht : place.target = .ok (.path raw))
    (hr : files.read raw = .ok content) :
    ∃ notices result, load files place size = (.loadingImage place.shown :: notices, result) ∧
      Verdict place.shown content size notices result ∧
      ((∃ image, result = .ok image) ↔ Acceptable content size) ∧
      (Acceptable content size → ∀ (others : FileTree) (other : List UInt8),
        others.read raw = .ok other → Agree content other size →
          (load others place size).2 = result) := by
  have hj := decode_judged place.shown content size
  refine ⟨_, _, load_eq ht hr size, hj, hj.image_iff, ?_⟩
  intro ha others other hread hagree
  rw [load_eq ht hread]
  exact hagree.decode ha place.shown

def sample : List UInt8 := [0x17, 0x20, 0, 0, 0, 0, 0, 0, 2, 0, 0, 0, 1, 0, 0, 0, 7, 9, 255]

theorem load_follows_format_sample :
    let files : FileTree := { entries := [([Text.bytes "i"], .file sample)] }
    (Value.text "i").target = .ok (.path (Text.bytes "i")) ∧
      files.read (Text.bytes "i") = .ok sample ∧ Acceptable sample 2 ∧
      ∃ notices result, load files (.text "i") 2 = (.loadingImage "i" :: notices, result) ∧
        Verdict "i" sample 2 notices result ∧
        ((∃ image, result = .ok image) ↔ Acceptable sample 2) ∧
        (Acceptable sample 2 → ∀ (others : FileTree) (other : List UInt8),
          others.read (Text.bytes "i") = .ok other → Agree sample other 2 →
            (load others (.text "i") 2).2 = result) := by
  intro files
  have ht : (Value.text "i").target = .ok (.path (Text.bytes "i")) :=
    Value.text_target (by decide +kernel) (Value.not_contains_null (by decide))
  have hr : files.read (Text.bytes "i") = .ok sample := by decide +kernel
  have ha : Acceptable sample 2 := by
    constructor <;> decide
  exact ⟨ht, hr, ha, load_follows_format ht hr⟩

end ByteMachine.Image
