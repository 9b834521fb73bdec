import ByteMachine.Proofs.Bus.Memory

/-!
Mapping memories.  On a bus that has a memory for each of its regions, every access is decided by
the byte at its address alone.  One more memory takes the addresses that nobody has answered for yet
and changes no other one.
-/

namespace ByteMachine.Bus

variable {h : Hardware} {bus : Bus h} {address : Int}

section Access

theorem Separate.byteAt_isSome_iff (hs : bus.Separate) (address : Int) :
    (bus.byteAt address).isSome ↔ ∃ region ∈ bus.regions, region.Covers address := by
  constructor
  · intro hb
    obtain ⟨byte, hb⟩ := Option.isSome_iff_exists.mp hb
    obtain ⟨region, memory, hh⟩ := hs.home_of_byteAt hb
    exact ⟨region, List.mem_of_find?_eq_some hh.found, hh.covers⟩
  · rintro ⟨region, hm, hc⟩
    have hf : (bus.regions.find? (·.Covers address)).isSome :=
      List.find?_isSome.mpr ⟨region, hm, by simpa using hc⟩
    obtain ⟨found, hf⟩ := Option.isSome_iff_exists.mp hf
    obtain ⟨memory, hh⟩ := hs.home hf
    exact hh.byteAt_isSome

theorem Separate.locate_none (hs : bus.Separate) (hb : bus.byteAt address = none) :
    bus.locate address = none := by
  cases hf : bus.regions.find? (·.Covers address) with
  | none => simp [locate, hf]
  | some region =>
    obtain ⟨memory, hh⟩ := hs.home hf
    have hsome := hh.byteAt_isSome
    rw [hb] at hsome
    cases hsome

theorem Separate.peek_unmapped (hs : bus.Separate) (hb : bus.byteAt address = none) :
    peek address bus = .error (.unmapped address) bus := by
  simp only [peek, hs.locate_none hb]

theorem Separate.load_unmapped (hs : bus.Separate) (hb : bus.byteAt address = none) (data : Int) :
    load address data bus = .error (.unmapped address) bus := by
  simp only [load, hs.locate_none hb]

theorem Separate.load_refused (hs : bus.Separate) {byte : UInt8}
    (hb : bus.byteAt address = some byte) {data : Int} (hd : ¬(0 ≤ data ∧ data ≤ 255)) :
    load address data bus = .error (.notByte data) bus := by
  obtain ⟨region, memory, hh⟩ := hs.home_of_byteAt hb
  simp only [load, hh.locate, Ram.write, if_pos hh.inside, if_neg hd]

end Access

section Extension

def beside (bus : Bus h) (device : Device h) : Bus h :=
  { bus with devices := bus.devices.push device }

def extend (bus : Bus h) (first last : Nat) : Bus h :=
  { bus.beside (.ram ⟨Array.replicate (last + 1 - first) 0⟩) with
    regions := bus.regions ++ [⟨first, last, bus.devices.size⟩] }

theorem Separate.device_lt (hs : bus.Separate) {region : Region} (hr : region ∈ bus.regions) :
    region.device < bus.devices.size := by
  obtain ⟨memory, hd, -⟩ := hs.memory region hr
  exact (Array.getElem?_eq_some_iff.mp hd).1

theorem Separate.beside (hs : bus.Separate) (device : Device h) : (bus.beside device).Separate := by
  refine ⟨hs.own, fun region hr => ?_⟩
  obtain ⟨memory, hd, hz⟩ := hs.memory region hr
  refine ⟨memory, ?_, hz⟩
  rw [Bus.beside, Array.getElem?_push_lt (hs.device_lt hr), ← hd, Array.getElem?_eq_getElem]

theorem Separate.byteAt_beside (hs : bus.Separate) (device : Device h) (address : Int) :
    (bus.beside device).byteAt address = bus.byteAt address := by
  cases hf : bus.regions.find? (·.Covers address) with
  | none => simp [byteAt, locate, Bus.beside, hf]
  | some region =>
    obtain ⟨memory, hh⟩ := hs.home hf
    have hfound : (bus.beside device).regions.find? (·.Covers address) = some region := hf
    obtain ⟨memory', hh'⟩ := (hs.beside device).home hfound
    have hlt := hs.device_lt (List.mem_of_find?_eq_some hf)
    have hsame := hh'.device
    rw [Bus.beside, Array.getElem?_push_lt hlt, ← Array.getElem?_eq_getElem hlt, hh.device] at hsame
    cases hsame
    rw [hh.byteAt, hh'.byteAt]

theorem Separate.extend (hs : bus.Separate) (first last : Nat) :
    (bus.extend first last).Separate := by
  constructor
  · change (List.map Region.device (bus.regions ++ [⟨first, last, bus.devices.size⟩])).Nodup
    rw [List.map_append]
    refine List.Nodup.append hs.own (List.nodup_singleton _) ?_
    rintro device hold hnew
    obtain ⟨region, hr, rfl⟩ := List.mem_map.mp hold
    exact absurd (List.mem_singleton.mp hnew) (hs.device_lt hr).ne
  · intro region hr
    rcases List.mem_append.mp hr with hr | hr
    · exact (hs.beside _).memory region hr
    · rw [List.mem_singleton] at hr
      subst hr
      exact ⟨_, Array.getElem?_push_size, Array.size_replicate⟩

/-- An address that is mapped stays with its memory; the new memory has the others of its range. -/
theorem Separate.byteAt_extend (hs : bus.Separate) (first last : Nat) (address : Int) :
    (bus.extend first last).byteAt address =
      (bus.byteAt address).or
        (if (first : Int) ≤ address ∧ address ≤ last then some 0 else none) := by
  cases hf : bus.regions.find? (·.Covers address) with
  | some region =>
    obtain ⟨memory, hh⟩ := hs.home hf
    obtain ⟨byte, hb⟩ := Option.isSome_iff_exists.mp hh.byteAt_isSome
    have hfound : (bus.extend first last).regions.find? (·.Covers address) = some region := by
      rw [Bus.extend, List.find?_append, hf, Option.some_or]
    let memory' : Ram := ⟨Array.replicate (last + 1 - first) 0⟩
    have hsame : (bus.extend first last).byteAt address =
        (bus.beside (.ram memory')).byteAt address := by
      simp only [byteAt, locate, hfound, Bus.beside, hf]
      rfl
    rw [hsame, hs.byteAt_beside, hb, Option.some_or]
  | none =>
    have hnone : bus.byteAt address = none := by simp [byteAt, locate, hf]
    rw [hnone, Option.none_or]
    by_cases hc : (first : Int) ≤ address ∧ address ≤ last
    · have hfound : (bus.extend first last).regions.find? (·.Covers address) =
          some ⟨first, last, bus.devices.size⟩ := by
        rw [Bus.extend, List.find?_append, hf, Option.none_or]
        exact List.find?_cons_of_pos (decide_eq_true hc)
      obtain ⟨memory, hh⟩ := (hs.extend first last).home hfound
      have hin := hh.inside
      have hnew := hh.device
      rw [Bus.extend, Bus.beside, Array.getElem?_push_size] at hnew
      cases hnew
      rw [if_pos hc, hh.byteAt]
      simp only [Ram.size, Array.size_replicate] at hin ⊢
      rw [Array.getElem?_replicate, if_pos (by omega)]
    · have hmissed : (bus.extend first last).regions.find? (·.Covers address) = none := by
        rw [Bus.extend, List.find?_append, hf, Option.none_or]
        exact List.find?_cons_of_neg fun h => hc (of_decide_eq_true h)
      rw [if_neg hc]
      simp [byteAt, locate, hmissed]

end Extension

section Whole

theorem foldl_size_spec (regions : List Region) (start : Nat) :
    start ≤ regions.foldl (fun size region => max size (region.last + 1)) start ∧
      (∀ region ∈ regions,
        region.last < regions.foldl (fun size region => max size (region.last + 1)) start) ∧
      (regions.foldl (fun size region => max size (region.last + 1)) start = start ∨
        ∃ region ∈ regions,
          regions.foldl (fun size region => max size (region.last + 1)) start =
            region.last + 1) := by
  induction regions generalizing start with
  | nil => simp
  | cons region rest ih =>
    obtain ⟨hle, hlt, heq⟩ := ih (max start (region.last + 1))
    rw [List.foldl_cons]
    generalize rest.foldl (fun size region => max size (region.last + 1))
      (max start (region.last + 1)) = size at hle hlt heq
    refine ⟨by omega, ?_, ?_⟩
    · intro other ho
      rcases List.mem_cons.mp ho with rfl | ho
      · omega
      · exact hlt other ho
    · rcases heq with heq | ⟨other, ho, heq⟩
      · rcases Nat.le_total start (region.last + 1) with h | h
        · exact .inr ⟨region, by simp, by omega⟩
        · exact .inl (by omega)
      · exact .inr ⟨other, by simp [ho], heq⟩

theorem last_lt_memorySize {region : Region} (hr : region ∈ bus.regions) :
    region.last < bus.memorySize :=
  (foldl_size_spec bus.regions 0).2.1 region hr

theorem exists_last (hz : bus.memorySize ≠ 0) :
    ∃ region ∈ bus.regions, bus.memorySize = region.last + 1 :=
  (foldl_size_spec bus.regions 0).2.2.resolve_left hz

theorem Holds.byteAt_eq {memory : List UInt8} (hm : bus.Holds memory) (address : Nat) :
    bus.byteAt address = memory[address]? := by
  by_cases ha : address < memory.length
  · exact hm.bytes address ha
  · rw [List.getElem?_eq_none (Nat.le_of_not_lt ha), Option.eq_none_iff_forall_ne_some]
    intro byte hb
    obtain ⟨region, memory, hh⟩ := hm.separate.home_of_byteAt hb
    have hlast := last_lt_memorySize (List.mem_of_find?_eq_some hh.found)
    have hcovers := hh.covers
    have hsize := hm.size
    unfold Region.Covers at hcovers
    omega

theorem Separate.peekRange_eq_ok (hs : bus.Separate) {count : Nat} {bytes : List UInt8}
    {after : Bus h} (hp : peekRange address count bus = .ok bytes after) :
    bytes.length = count ∧
      ∀ i : Nat, i < count → bus.byteAt (address + i) = bytes[i]? := by
  induction count generalizing address bytes with
  | zero =>
    cases hp
    exact ⟨rfl, by simp⟩
  | succ count ih =>
    obtain ⟨byte, bus', hb, hp⟩ := bind_eq_ok hp
    obtain ⟨rest, last, hr, hp⟩ := bind_eq_ok hp
    cases hp
    cases hx : bus.byteAt address with
    | none =>
      rw [hs.peek_unmapped hx] at hb
      cases hb
    | some found =>
      rw [peek_byteAt hx] at hb
      cases hb
      obtain ⟨hl, hbytes⟩ := ih hr
      refine ⟨congrArg (· + 1) hl, ?_⟩
      intro i hi
      cases i with
      | zero => simpa using hx
      | succ i =>
        have hnext := hbytes i (by omega)
        rw [show address + 1 + (i : Int) = address + ((i + 1 : Nat) : Int) by omega] at hnext
        rw [hnext, List.getElem?_cons_succ]

end Whole

end ByteMachine.Bus
