import ByteMachine.Image.Basic
import Mathlib.Tactic.Common

/-!
Images as the content of files.  What is read has its program counter inside memory.  What is
written is read back, except for a program counter at the end of memory: it fits into the header,
but no reader accepts it.
-/

namespace ByteMachine

variable {image : Image} {size : Int}

theorem decodeWord_encodeWord {n : Nat} (h : n < 0x100000000) :
    ∃ a b c d, encodeWord n = some [a, b, c, d] ∧ decodeWord a b c d = n := by
  have hfits : (0 : Int) ≤ n ∧ (n : Int) < 0x100000000 := by omega
  refine ⟨.ofNat n, .ofNat (n / 0x100), .ofNat (n / 0x10000), .ofNat (n / 0x1000000), ?_, ?_⟩
  · rw [encodeWord, if_pos hfits, Int.toNat_natCast]
  · simp only [decodeWord, UInt8.toNat_ofNat', Nat.reducePow]
    omega

namespace Image

theorem ofBytes_toBytes (magic size memorySize pc : Nat) (hm : magic < 0x100000000)
    (hs : size < 0x100000000) (hz : memorySize < 0x100000000) (hp : pc < 0x100000000) :
    ∃ bytes, Header.toBytes? ⟨magic, size, memorySize, pc⟩ = some bytes ∧
      bytes.length = Header.byteCount ∧
      Header.ofBytes? bytes = some ⟨magic, size, memorySize, pc⟩ := by
  obtain ⟨a, b, c, d, hm, hm'⟩ := decodeWord_encodeWord hm
  obtain ⟨e, f, g, h, hs, hs'⟩ := decodeWord_encodeWord hs
  obtain ⟨i, j, k, l, hz, hz'⟩ := decodeWord_encodeWord hz
  obtain ⟨m, n, o, p, hp, hp'⟩ := decodeWord_encodeWord hp
  refine ⟨[a, b, c, d, e, f, g, h, i, j, k, l, m, n, o, p], ?_, rfl, ?_⟩
  · simp only [Header.toBytes?, hm, hs, hz, hp]
    rfl
  · simp only [Header.ofBytes?, hm', hs', hz', hp']

def Encodable (image : Image) : Prop :=
  (0 ≤ image.pc ∧ image.pc < 0x100000000) ∧ Header.byteCount + image.size < 0x100000000

theorem encode_ok (h : image.Encodable) :
    ∃ bytes, image.encode = some (bytes ++ image.memory) ∧ bytes.length = Header.byteCount ∧
      Header.ofBytes? bytes = some image.header := by
  obtain ⟨⟨hlow, hhigh⟩, hsize⟩ := h
  obtain ⟨pc, hpc⟩ := Int.eq_ofNat_of_zero_le hlow
  obtain ⟨bytes, hb, hl, hr⟩ := ofBytes_toBytes Header.magicNumber (Header.byteCount + image.size)
    image.size pc (by decide) hsize (by omega) (by omega)
  have hheader : image.header =
      ⟨Header.magicNumber, (Header.byteCount + image.size : Nat), image.size, pc⟩ := by
    rw [header, hpc]
    rfl
  refine ⟨bytes, ?_, hl, by rw [hheader, hr]⟩
  rw [encode, hheader, hb]
  rfl

theorem checkHeader_own (image : Image) :
    checkHeader image.header image.size =
      if image.pc < image.size then .ok () else .error (.pcBeyond image.pc image.size) := by
  have hmagic : ¬image.header.magic ≠ Header.magicNumber := not_not.mpr rfl
  have hsize : ¬image.header.memorySize ≠ image.size := not_not.mpr rfl
  rw [checkHeader, if_neg hmagic, if_neg hsize]
  by_cases hp : image.pc < image.size
  · rw [if_pos hp]
    exact if_neg (Int.not_le.mpr hp)
  · rw [if_neg hp]
    exact if_pos (Int.not_lt.mp hp)

/-- What becomes of an image that is written and read again. -/
theorem decode_encode (h : image.Encodable) (path : String) :
    ∃ content, image.encode = some content ∧
      (decode path content image.size).2 =
        if image.pc < image.size then .ok image else .error (.pcBeyond image.pc image.size) := by
  obtain ⟨bytes, he, hl, hr⟩ := encode_ok h
  refine ⟨_, he, ?_⟩
  have hhead : (bytes ++ image.memory).take Header.byteCount = bytes := by
    rw [← hl, List.take_left]
  have htail : ((bytes ++ image.memory).drop Header.byteCount).take
      image.header.memorySize.toNat = image.memory := by
    rw [← hl, List.drop_left, header, Int.toNat_natCast, size, List.take_length]
  have hwhole : ¬((image.memory.length : Int) < image.header.memorySize) := Int.lt_irrefl _
  rw [decode, hhead, hr]
  dsimp only
  rw [checkHeader_own]
  by_cases hp : image.pc < image.size
  · rw [if_pos hp, if_pos hp]
    dsimp only
    rw [htail, if_neg hwhole]
    rfl
  · rw [if_neg hp, if_neg hp]

theorem ofBytes_pc {bytes : List UInt8} {header : Header}
    (h : Header.ofBytes? bytes = some header) : 0 ≤ header.pc := by
  unfold Header.ofBytes? at h
  split at h
  · cases h
    exact Int.natCast_nonneg _
  · cases h

theorem checkHeader_ok {header : Header} (h : checkHeader header size = .ok ()) :
    header.memorySize = size ∧ header.pc < size := by
  unfold checkHeader at h
  split at h
  · cases h
  split at h
  · cases h
  split at h
  · cases h
  · omega

/-- The image fills a memory of the given size, and its program counter lies inside. -/
structure Fits (image : Image) (size : Int) : Prop where
  pc : 0 ≤ image.pc ∧ image.pc < size
  size : image.size = size

theorem decode_fits {path : String} {content : List UInt8}
    (h : (decode path content size).2 = .ok image) : image.Fits size := by
  unfold decode at h
  dsimp only at h
  cases hr : Header.ofBytes? (content.take Header.byteCount) with
  | none => simp [hr] at h
  | some header =>
    rw [hr] at h
    dsimp only at h
    cases hc : checkHeader header size with
    | error e => simp [hc] at h
    | ok _ =>
      obtain ⟨hsize, hpc⟩ := checkHeader_ok hc
      have hnonneg := ofBytes_pc hr
      rw [hc] at h
      dsimp only at h
      split at h
      · cases h
      · next hlong =>
        cases h
        refine ⟨⟨hnonneg, hpc⟩, ?_⟩
        rw [List.length_take] at hlong
        rw [Image.size, List.length_take]
        omega

theorem load_fits {files : FileTree} {place : Value}
    (h : (load files place size).2 = .ok image) : image.Fits size := by
  unfold load at h
  cases ht : place.target with
  | error e => simp [ht] at h
  | ok target =>
    cases hr : files.readTarget target with
    | error e => simp [ht, hr] at h
    | ok content =>
      simp only [ht, hr] at h
      exact decode_fits h

end Image

end ByteMachine
