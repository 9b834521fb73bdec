import ByteMachine.Bus.Basic
import ByteMachine.Proofs.Effect
import Mathlib.Data.List.Nodup

/-!
What a bus of memories stores.  Regions may overlap, leave gaps and come in any order; as long as
each of them has a memory of its own, every address has a byte of its own, and the bus acts as one
list of bytes on all addresses without a gap.
-/

namespace ByteMachine.Bus

variable {h : Hardware} {bus : Bus h} {address : Int}

/-- The byte that memory shows at an address. -/
def byteAt (bus : Bus h) (address : Int) : Option UInt8 :=
  match bus.locate address with
  | some (_, .ram memory, offset) => memory.cells[offset.toNat]?
  | _ => none

/-- Every region has a memory of its own, of the size of the region. -/
structure Separate (bus : Bus h) : Prop where
  own : (bus.regions.map Region.device).Nodup
  memory : ∀ region ∈ bus.regions, ∃ memory, bus.devices[region.device]? = some (.ram memory) ∧
    memory.size = region.last + 1 - region.first

/-- Every address below the size of memory lies in a region. -/
structure GapFree (bus : Bus h) : Prop extends bus.Separate where
  covered : ∀ address : Nat, address < bus.memorySize →
    ∃ region ∈ bus.regions, region.Covers address

structure Home (bus : Bus h) (address : Int) (region : Region) (memory : Ram) : Prop where
  found : bus.regions.find? (·.Covers address) = some region
  device : bus.devices[region.device]? = some (.ram memory)
  size : memory.size = region.last + 1 - region.first

section Home

variable {region : Region} {memory : Ram}

theorem Separate.home (hs : bus.Separate) {region : Region}
    (hf : bus.regions.find? (·.Covers address) = some region) :
    ∃ memory, bus.Home address region memory := by
  obtain ⟨memory, hd, hz⟩ := hs.memory region (List.mem_of_find?_eq_some hf)
  exact ⟨memory, hf, hd, hz⟩

theorem Home.covers (hh : bus.Home address region memory) : region.Covers address := by
  simpa using List.find?_some hh.found

theorem Home.locate (hh : bus.Home address region memory) :
    bus.locate address = some (region.device, .ram memory, address - region.first) := by
  simp [Bus.locate, hh.found, hh.device]

theorem Home.inside (hh : bus.Home address region memory) :
    0 ≤ address - region.first ∧ address - region.first < memory.size := by
  have hc := hh.covers
  have hz := hh.size
  unfold Region.Covers at hc
  omega

theorem Home.byteAt (hh : bus.Home address region memory) :
    bus.byteAt address = memory.cells[(address - region.first).toNat]? := by
  simp [Bus.byteAt, hh.locate]

theorem Home.byteAt_isSome (hh : bus.Home address region memory) :
    (bus.byteAt address).isSome := by
  have hi := hh.inside
  have hz : (address - region.first).toNat < memory.cells.size := by
    unfold Ram.size at hi
    omega
  rw [hh.byteAt, Array.getElem?_eq_getElem hz]
  rfl

end Home

theorem Separate.home_of_byteAt (hs : bus.Separate) {byte : UInt8}
    (hb : bus.byteAt address = some byte) : ∃ region memory, bus.Home address region memory := by
  cases hf : bus.regions.find? (·.Covers address) with
  | none => simp [Bus.byteAt, Bus.locate, hf] at hb
  | some region =>
    obtain ⟨memory, hh⟩ := hs.home hf
    exact ⟨region, memory, hh⟩

theorem GapFree.byteAt_isSome (hg : bus.GapFree) {address : Nat}
    (ha : address < bus.memorySize) : (bus.byteAt address).isSome := by
  obtain ⟨region, hm, hc⟩ := hg.covered address ha
  have hf : (bus.regions.find? (·.Covers (address : Int))).isSome :=
    List.find?_isSome.mpr ⟨region, hm, by simpa using hc⟩
  obtain ⟨found, hf⟩ := Option.isSome_iff_exists.mp hf
  obtain ⟨memory, hh⟩ := hg.toSeparate.home hf
  exact hh.byteAt_isSome

theorem locate_eq_some {index : Nat} {device : Device h} {offset : Int}
    (hl : bus.locate address = some (index, device, offset)) :
    ∃ region ∈ bus.regions, region.Covers address ∧ region.device = index ∧
      bus.devices[index]? = some device ∧ offset = address - region.first := by
  simp only [locate, Option.bind_eq_bind, Option.bind_eq_some_iff, Option.pure_def,
    Option.some.injEq, Prod.mk.injEq] at hl
  obtain ⟨region, hf, device, hd, rfl, rfl, rfl⟩ := hl
  exact ⟨region, List.mem_of_find?_eq_some hf, by simpa using List.find?_some hf, rfl, hd, rfl⟩

theorem peek_byteAt {byte : UInt8} (hb : bus.byteAt address = some byte) :
    peek address bus = .ok byte bus := by
  unfold byteAt at hb
  split at hb
  · rename_i index memory offset hl
    obtain ⟨region, -, hc, -, -, rfl⟩ := locate_eq_some hl
    have hi : 0 ≤ address - region.first := by
      unfold Region.Covers at hc
      omega
    simp only [peek, hl, Ram.read, if_pos hi, hb]
  · cases hb

section Replace

variable {region other : Region} {memory fresh seen : Ram} {place : Int}

theorem Home.unique (hs : bus.Separate) (hh : bus.Home address region memory)
    (ho : bus.Home place other seen) (hi : other.device = region.device) :
    other = region ∧ seen = memory := by
  have heq : other = region := List.inj_on_of_nodup_map hs.own
    (List.mem_of_find?_eq_some ho.found) (List.mem_of_find?_eq_some hh.found) hi
  subst heq
  exact ⟨rfl, by simpa using ho.device.symm.trans hh.device⟩

theorem Home.replace (hh : bus.Home address region memory) (hz : fresh.size = memory.size) :
    (bus.setDevice region.device (.ram fresh)).Home address region fresh := by
  have hslot : region.device < bus.devices.size := (Array.getElem?_eq_some_iff.mp hh.device).1
  exact ⟨hh.found, by simp [setDevice, hslot], hz.trans hh.size⟩

theorem Home.replace_apart (ho : bus.Home place other seen) (hi : other.device ≠ region.device) :
    (bus.setDevice region.device (.ram fresh)).Home place other seen := by
  refine ⟨ho.found, ?_, ho.size⟩
  rw [setDevice, Array.getElem?_setIfInBounds_ne (Ne.symm hi)]
  exact ho.device

theorem Separate.replace (hs : bus.Separate) (hh : bus.Home address region memory)
    (hz : fresh.size = memory.size) :
    (bus.setDevice region.device (.ram fresh)).Separate := by
  refine ⟨hs.own, fun r hr => ?_⟩
  by_cases hi : r.device = region.device
  · have heq : r = region :=
      List.inj_on_of_nodup_map hs.own hr (List.mem_of_find?_eq_some hh.found) hi
    subst heq
    exact ⟨fresh, (hh.replace hz).device, hz.trans hh.size⟩
  · obtain ⟨m, hm, hn⟩ := hs.memory r hr
    refine ⟨m, ?_, hn⟩
    rw [setDevice, Array.getElem?_setIfInBounds_ne (Ne.symm hi)]
    exact hm

/-- A byte stored in the memory of an address shows there, and nowhere else. -/
theorem byteAt_replace (hs : bus.Separate) (hh : bus.Home address region memory) (byte : UInt8)
    (hf : fresh.cells = memory.cells.setIfInBounds (address - region.first).toNat byte) :
    (bus.setDevice region.device (.ram fresh)).byteAt place =
      if place = address then some byte else bus.byteAt place := by
  have hz : fresh.size = memory.size := by simp [Ram.size, hf]
  have hin := hh.inside
  unfold Ram.size at hin
  cases hp : bus.regions.find? (·.Covers place) with
  | none =>
    have hne : place ≠ address := by
      rintro rfl
      simp [hh.found] at hp
    simp [byteAt, locate, setDevice, hp, hne]
  | some r =>
    obtain ⟨m, hr⟩ := hs.home hp
    by_cases hi : r.device = region.device
    · obtain ⟨rfl, rfl⟩ := hh.unique hs hr hi
      have hpin := hr.inside
      rw [(hr.replace hz).byteAt, hr.byteAt, hf]
      by_cases ha : place = address
      · subst ha
        rw [if_pos rfl]
        exact Array.getElem?_setIfInBounds_self_of_lt (by omega)
      · rw [if_neg ha]
        exact Array.getElem?_setIfInBounds_ne (by omega)
    · have hne : place ≠ address := by
        rintro rfl
        exact hi (congrArg Region.device (Option.some.inj (hp.symm.trans hh.found)))
      rw [if_neg hne, (hr.replace_apart hi).byteAt, hr.byteAt]

end Replace

theorem load_byteAt (hs : bus.Separate) {old : UInt8} (hb : bus.byteAt address = some old)
    {data : Int} (hd : 0 ≤ data ∧ data ≤ 255) :
    ∃ devices, load address data bus = .ok () { bus with devices } ∧
      Separate { bus with devices } ∧
      ∀ place, byteAt { bus with devices } place =
        if place = address then some (UInt8.ofInt data) else bus.byteAt place := by
  obtain ⟨region, memory, hh⟩ := hs.home_of_byteAt hb
  let fresh : Ram :=
    ⟨memory.cells.setIfInBounds (address - region.first).toNat (UInt8.ofInt data)⟩
  refine ⟨bus.devices.setIfInBounds region.device (.ram fresh), ?_, ?_, ?_⟩
  · simp only [load, hh.locate, Ram.write, if_pos hh.inside, if_pos hd]
    rfl
  · exact hs.replace hh (by simp [Ram.size, fresh])
  · exact fun place => byteAt_replace hs hh (UInt8.ofInt data) rfl

end ByteMachine.Bus
