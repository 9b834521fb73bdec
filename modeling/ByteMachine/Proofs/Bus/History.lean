import ByteMachine.Proofs.Bus.Mapping
import Mathlib.Order.Bounds.Defs

/-!
What a bus of memories remembers.  Whatever has been mapped and stored, in any order and with any
overlap, every mapped address keeps a byte of its own: the one that was stored there last, or zero.
-/

namespace ByteMachine.Bus

variable {h : Hardware} {bus : Bus h} {address data : Int} {past : List Request}

inductive Request where
  | map (first last size : Int)
  | peek (address : Int)
  | read (address : Int)
  | load (address data : Int)
  | write (address data : Int)
  deriving DecidableEq, Repr

namespace Request

def perform : Request → BusM h (Option UInt8)
  | map first last size => do
    let memory ← MonadExcept.ofExcept (Ram.create (some size))
    let device ← addDevice (.ram memory)
    register first last device
    return none
  | peek address => return some (← Bus.peek address)
  | read address => return some (← Bus.read address)
  | load address data => do
    Bus.load address data
    return none
  | write address data => do
    Bus.write address data
    return none

/-- The range is one that a memory of this size can answer for, and the address lies in it. -/
def Maps : Request → Int → Prop
  | map first last size, address =>
    0 ≤ first ∧ size = last - first + 1 ∧ first ≤ address ∧ address ≤ last
  | _, _ => False

instance (request : Request) (address : Int) : Decidable (request.Maps address) := by
  cases request <;> unfold Maps <;> infer_instance

/-- The byte that is to be stored at an address, if the request is about this address and has a byte
for it. -/
def stored? (address : Int) : Request → Option UInt8
  | load place data | write place data =>
    if place = address ∧ 0 ≤ data ∧ data ≤ 255 then some (.ofInt data) else none
  | _ => none

def StoresAt (address : Int) : Request → Prop
  | load place _ | write place _ => place = address
  | _ => False

end Request

def serve (bus : Bus h) (request : Request) : Except Failure (Option UInt8) × Bus h :=
  match request.perform bus with
  | .ok answer bus => (.ok answer, bus)
  | .error failure bus => (.error failure, bus)

def after (bus : Bus h) : List Request → Bus h
  | [] => bus
  | request :: past => ((bus.after past).serve request).2

/-- One of the requests has mapped the address. -/
def Mapped (past : List Request) (address : Int) : Prop := ∃ request ∈ past, request.Maps address

instance (past : List Request) (address : Int) : Decidable (Mapped past address) :=
  inferInstanceAs (Decidable (∃ request ∈ past, request.Maps address))

/-- What was stored last at an address, since it was mapped. -/
def lastStored (address : Int) : List Request → UInt8
  | [] => 0
  | request :: past =>
    match request.stored? address with
    | some byte => if Mapped past address then byte else lastStored address past
    | none => lastStored address past

/-- The answer to a request, as far as it depends on what was asked for before. -/
def expected (past : List Request) : Request → Except Failure (Option UInt8)
  | .map first last size =>
    if ¬0 < size then .error .ramSize
    else if ¬(0 ≤ first ∧ first ≤ last) then .error .invalidRange
    else if size = last - first + 1 then .ok none
    else .error (.sizeMismatch size.toNat (last - first + 1).toNat)
  | .peek address | .read address =>
    if Mapped past address then .ok (some (lastStored address past))
    else .error (.unmapped address)
  | .load address data | .write address data =>
    if ¬Mapped past address then .error (.unmapped address)
    else if 0 ≤ data ∧ data ≤ 255 then .ok none
    else .error (.notByte data)

/-- All that the bus has kept of its history. -/
structure Recalls (bus : Bus h) (past : List Request) : Prop where
  separate : bus.Separate
  ranges : ∀ region ∈ bus.regions, region.first ≤ region.last
  bytes : ∀ address, bus.byteAt address =
    if Mapped past address then some (lastStored address past) else none

section Facts

@[simp] theorem mapped_cons (request : Request) (past : List Request) (address : Int) :
    Mapped (request :: past) address ↔ request.Maps address ∨ Mapped past address := by
  simp [Mapped]

theorem not_mapped_nil (address : Int) : ¬Mapped [] address := by simp [Mapped]

theorem Mapped.append {past : List Request} (hm : Mapped past address) (later : List Request) :
    Mapped (later ++ past) address := by
  obtain ⟨request, hr, hc⟩ := hm
  exact ⟨request, List.mem_append_right later hr, hc⟩

theorem lastStored_of_stored {request : Request} {byte : UInt8}
    (hs : request.stored? address = some byte) (hm : Mapped past address) :
    lastStored address (request :: past) = byte := by
  simp only [lastStored, hs, if_pos hm]

theorem lastStored_of_not_stored {request : Request} (hs : request.stored? address = none) :
    lastStored address (request :: past) = lastStored address past := by
  simp only [lastStored, hs]

theorem lastStored_unmapped (hm : ¬Mapped past address) : lastStored address past = 0 := by
  induction past with
  | nil => rfl
  | cons request past ih =>
    rw [mapped_cons, not_or] at hm
    cases hs : request.stored? address with
    | none => rw [lastStored_of_not_stored hs, ih hm.2]
    | some byte => simp only [lastStored, hs, if_neg hm.2, ih hm.2]

theorem Request.stored?_eq_none {request : Request} (hs : ¬request.StoresAt address) :
    request.stored? address = none := by
  cases request with
  | load place data | write place data => exact if_neg fun hc => hs hc.1
  | _ => rfl

end Facts

section Step

theorem Recalls.congr {next : Bus h} {later : List Request} (hr : bus.Recalls past)
    (hregions : next.regions = bus.regions) (hdevices : next.devices = bus.devices)
    (hm : ∀ address, Mapped later address ↔ Mapped past address)
    (hl : ∀ address, lastStored address later = lastStored address past) :
    next.Recalls later := by
  have hb : ∀ address, next.byteAt address = bus.byteAt address := by
    intro address
    simp only [byteAt, locate, hregions, hdevices]
  refine ⟨⟨?_, ?_⟩, ?_, fun address => ?_⟩
  · rw [hregions]
    exact hr.separate.own
  · rw [hregions, hdevices]
    exact hr.separate.memory
  · rw [hregions]
    exact hr.ranges
  · rw [hb, hr.bytes, hl]
    exact if_congr (hm address).symm rfl rfl

theorem Recalls.peek (hr : bus.Recalls past) (address : Int) :
    Bus.peek address bus =
      if Mapped past address then .ok (lastStored address past) bus
      else .error (.unmapped address) bus := by
  have hb := hr.bytes address
  by_cases hm : Mapped past address
  · rw [if_pos hm] at hb ⊢
    exact peek_byteAt hb
  · rw [if_neg hm] at hb ⊢
    exact hr.separate.peek_unmapped hb

theorem Recalls.load_refused (hr : bus.Recalls past)
    (hc : ¬(Mapped past address ∧ 0 ≤ data ∧ data ≤ 255)) :
    Bus.load address data bus =
      .error (if Mapped past address then .notByte data else .unmapped address) bus := by
  have hb := hr.bytes address
  by_cases hm : Mapped past address
  · rw [if_pos hm] at hb ⊢
    exact hr.separate.load_refused hb fun hd => hc ⟨hm, hd⟩
  · rw [if_neg hm] at hb ⊢
    exact hr.separate.load_unmapped hb data

theorem Recalls.load (hr : bus.Recalls past) (hm : Mapped past address)
    (hd : 0 ≤ data ∧ data ≤ 255) :
    ∃ devices, Bus.load address data bus = .ok () { bus with devices } ∧
      Recalls { bus with devices } (.load address data :: past) := by
  have hb := hr.bytes address
  rw [if_pos hm] at hb
  obtain ⟨devices, hl, hs, hbytes⟩ := load_byteAt hr.separate hb hd
  refine ⟨devices, hl, hs, hr.ranges, fun place => ?_⟩
  have hmaps : Mapped (.load address data :: past) place ↔ Mapped past place := by
    simp [Request.Maps]
  rw [hbytes, if_congr hmaps rfl rfl]
  by_cases hp : place = address
  · subst hp
    have hstored : (Request.load place data).stored? place = some (.ofInt data) := by
      simp [Request.stored?, hd]
    rw [if_pos rfl, if_pos hm, lastStored_of_stored hstored hm]
  · have hstored : (Request.load address data).stored? place = none :=
      Request.stored?_eq_none (Ne.symm hp)
    rw [if_neg hp, hr.bytes, lastStored_of_not_stored hstored]

/-- A new memory starts with zeros where nothing was mapped, and is hidden everywhere else. -/
theorem Recalls.extend (hr : bus.Recalls past) {first last : Nat} (hle : first ≤ last) {size : Int}
    (hz : size = last - first + 1) :
    (bus.extend first last).Recalls (.map first last size :: past) where
  separate := hr.separate.extend first last
  ranges := by
    intro region hm
    rcases List.mem_append.mp hm with hm | hm
    · exact hr.ranges region hm
    · rw [List.mem_singleton] at hm
      subst hm
      exact hle
  bytes := by
    intro address
    have hnew : (Request.map first last size).Maps address ↔
        (first : Int) ≤ address ∧ address ≤ last := by
      simp [Request.Maps, hz]
    have hstored : lastStored address (.map first last size :: past) = lastStored address past :=
      lastStored_of_not_stored rfl
    rw [hr.separate.byteAt_extend, hr.bytes, hstored]
    by_cases hm : Mapped past address
    · rw [if_pos hm, if_pos ((mapped_cons ..).mpr (.inr hm)), Option.some_or]
    · rw [if_neg hm, Option.none_or, lastStored_unmapped hm]
      refine if_congr ?_ rfl rfl
      rw [mapped_cons, hnew, or_iff_left hm]

theorem Recalls.beside (hr : bus.Recalls past) (device : Device h) :
    (bus.beside device).Recalls past where
  separate := hr.separate.beside device
  ranges := hr.ranges
  bytes address := by rw [hr.separate.byteAt_beside, hr.bytes]

theorem serve_ok {request : Request} {answer : Option UInt8} {next : Bus h}
    (hp : request.perform bus = .ok answer next) : bus.serve request = (.ok answer, next) := by
  simp only [serve, hp]

theorem serve_error {request : Request} {failure : Failure} {next : Bus h}
    (hp : request.perform bus = .error failure next) :
    bus.serve request = (.error failure, next) := by
  simp only [serve, hp]

theorem Recalls.forget (hr : bus.Recalls past) {request : Request}
    (hm : ∀ address, ¬request.Maps address)
    (hs : ∀ address, Mapped past address → request.stored? address = none) :
    bus.Recalls (request :: past) := by
  have hmapped : ∀ address, Mapped (request :: past) address ↔ Mapped past address := by
    intro address
    rw [mapped_cons, or_iff_right (hm address)]
  refine hr.congr rfl rfl hmapped fun address => ?_
  by_cases ha : Mapped past address
  · exact lastStored_of_not_stored (hs address ha)
  · rw [lastStored_unmapped ha, lastStored_unmapped fun hc => ha ((hmapped address).mp hc)]

theorem Recalls.serve_peek (hr : bus.Recalls past) (address : Int) :
    (bus.serve (.peek address)).1 = expected past (.peek address) ∧
      (bus.serve (.peek address)).2.Recalls (.peek address :: past) := by
  have hnext : bus.Recalls (.peek address :: past) :=
    hr.forget (fun _ => not_false) fun _ _ => rfl
  have hp := hr.peek address
  rw [expected]
  by_cases hm : Mapped past address
  · rw [if_pos hm] at hp ⊢
    rw [serve_ok (bind_ok hp)]
    exact ⟨rfl, hnext⟩
  · rw [if_neg hm] at hp ⊢
    rw [serve_error (bind_error hp)]
    exact ⟨rfl, hnext⟩

theorem Recalls.serve_read (hr : bus.Recalls past) (address : Int) :
    (bus.serve (.read address)).1 = expected past (.read address) ∧
      (bus.serve (.read address)).2.Recalls (.read address :: past) := by
  have hnext : bus.Recalls (.read address :: past) :=
    hr.forget (fun _ => not_false) fun _ _ => rfl
  have hp := hr.peek address
  rw [expected]
  by_cases hm : Mapped past address
  · rw [if_pos hm] at hp ⊢
    have hread : Bus.read address bus = .ok (lastStored address past)
        (bus.record .read address (lastStored address past).toNat) := bind_ok hp
    rw [serve_ok (bind_ok hread)]
    exact ⟨rfl, hnext.congr rfl rfl (fun _ => Iff.rfl) fun _ => rfl⟩
  · rw [if_neg hm] at hp ⊢
    have hread : Bus.read address bus = .error (.unmapped address) bus := bind_error hp
    rw [serve_error (bind_error hread)]
    exact ⟨rfl, hnext⟩

theorem Recalls.refused (hr : bus.Recalls past)
    (hc : ¬(Mapped past address ∧ 0 ≤ data ∧ data ≤ 255)) :
    bus.Recalls (.load address data :: past) := by
  refine hr.forget (fun _ => not_false) fun place hm => if_neg ?_
  rintro ⟨rfl, hd⟩
  exact hc ⟨hm, hd⟩

theorem Recalls.written {next : Bus h} {log : List Access}
    (hr : next.Recalls (.load address data :: past)) :
    Recalls { next with log } (.write address data :: past) :=
  hr.congr rfl rfl (fun place => by simp [Request.Maps]) fun _ => rfl

theorem expected_load_refused (hc : ¬(Mapped past address ∧ 0 ≤ data ∧ data ≤ 255)) :
    expected past (.load address data) =
      .error (if Mapped past address then .notByte data else .unmapped address) := by
  rw [expected]
  by_cases hm : Mapped past address
  · rw [if_neg (not_not.mpr hm), if_neg fun hd => hc ⟨hm, hd⟩, if_pos hm]
  · rw [if_pos hm, if_neg hm]

theorem expected_load (hm : Mapped past address) (hd : 0 ≤ data ∧ data ≤ 255) :
    expected past (.load address data) = .ok none := by
  rw [expected, if_neg (not_not.mpr hm), if_pos hd]

theorem Recalls.serve_load (hr : bus.Recalls past) (address data : Int) :
    (bus.serve (.load address data)).1 = expected past (.load address data) ∧
      (bus.serve (.load address data)).2.Recalls (.load address data :: past) := by
  by_cases hc : Mapped past address ∧ 0 ≤ data ∧ data ≤ 255
  · obtain ⟨devices, hl, hnext⟩ := hr.load hc.1 hc.2
    rw [serve_ok (bind_ok hl), expected_load hc.1 hc.2]
    exact ⟨rfl, hnext⟩
  · rw [serve_error (bind_error (hr.load_refused hc)), expected_load_refused hc]
    exact ⟨rfl, hr.refused hc⟩

theorem Recalls.serve_write (hr : bus.Recalls past) (address data : Int) :
    (bus.serve (.write address data)).1 = expected past (.write address data) ∧
      (bus.serve (.write address data)).2.Recalls (.write address data :: past) := by
  change _ = expected past (.load address data) ∧ _
  by_cases hc : Mapped past address ∧ 0 ≤ data ∧ data ≤ 255
  · obtain ⟨devices, hl, hnext⟩ := hr.load hc.1 hc.2
    have hwrite : Bus.write address data bus =
        .ok () (record { bus with devices } .write address data) := bind_ok hl
    rw [serve_ok (bind_ok hwrite), expected_load hc.1 hc.2]
    exact ⟨rfl, hnext.written⟩
  · have hwrite : Bus.write address data bus =
        .error (if Mapped past address then .notByte data else .unmapped address) bus :=
      bind_error (hr.load_refused hc)
    rw [serve_error (bind_error hwrite), expected_load_refused hc]
    exact ⟨rfl, (hr.refused hc).written⟩

theorem Recalls.unregistered (hr : bus.Recalls past) {first last size : Int}
    (hc : ¬(0 ≤ first ∧ first ≤ last ∧ size = last - first + 1)) :
    bus.Recalls (.map first last size :: past) := by
  refine hr.forget (fun address hm => hc ?_) fun _ _ => rfl
  obtain ⟨hf, hz, ha⟩ := hm
  exact ⟨hf, by omega, hz⟩

theorem perform_map_eq {first last size : Int} (hz : 0 < size) :
    (Request.map first last size).perform bus =
      (register first last bus.devices.size >>= fun _ => return none)
        (bus.beside (.ram ⟨Array.replicate size.toNat 0⟩)) := by
  have hcreate : (MonadExcept.ofExcept (Ram.create (some size)) : BusM h Ram) bus =
      .ok ⟨Array.replicate size.toNat 0⟩ bus := by
    rw [Ram.create, if_pos hz]
    rfl
  exact bind_ok hcreate

theorem register_beside (memory : Ram) {first last : Nat} (hle : first ≤ last) :
    register first last bus.devices.size (bus.beside (.ram memory)) =
      if memory.size = last - first + 1 then
        .ok () { bus.beside (.ram memory) with
          regions := bus.regions ++ [⟨first, last, bus.devices.size⟩] }
      else .error (.sizeMismatch memory.size (last - first + 1)) (bus.beside (.ram memory)) := by
  have hrange : (0 : Int) ≤ first ∧ (first : Int) ≤ last := by omega
  have hslot : (bus.beside (.ram memory)).devices[bus.devices.size]? = some (.ram memory) :=
    Array.getElem?_push_size
  simp only [register, if_pos hrange, hslot, Int.toNat_natCast]
  rfl

theorem Recalls.serve_map (hr : bus.Recalls past) (first last size : Int) :
    (bus.serve (.map first last size)).1 = expected past (.map first last size) ∧
      (bus.serve (.map first last size)).2.Recalls (.map first last size :: past) := by
  rw [expected]
  by_cases hz : 0 < size
  · let memory : Ram := ⟨Array.replicate size.toNat 0⟩
    have hsize : memory.size = size.toNat := Array.size_replicate
    have hp : (Request.map first last size).perform bus = _ := perform_map_eq hz
    rw [if_neg (not_not.mpr hz)]
    by_cases hrange : 0 ≤ first ∧ first ≤ last
    · obtain ⟨start, rfl⟩ := Int.eq_ofNat_of_zero_le hrange.1
      obtain ⟨stop, rfl⟩ := Int.eq_ofNat_of_zero_le (by omega : 0 ≤ last)
      have hle : start ≤ stop := by omega
      have hregister : register start stop bus.devices.size (bus.beside (.ram memory)) = _ :=
        register_beside memory hle
      rw [if_neg (not_not.mpr hrange)]
      rw [hsize] at hregister
      by_cases hfit : size = stop - start + 1
      · rw [if_pos (by omega : size.toNat = stop - start + 1)] at hregister
        have hnext := hr.extend hle hfit
        rw [Bus.extend, show stop + 1 - start = size.toNat by omega] at hnext
        rw [if_pos hfit, serve_ok (hp.trans (bind_ok hregister))]
        exact ⟨rfl, hnext⟩
      · rw [if_neg (by omega : ¬size.toNat = stop - start + 1)] at hregister
        rw [if_neg hfit, serve_error (hp.trans (bind_error hregister))]
        refine ⟨?_, (hr.beside _).unregistered fun hc => hfit hc.2.2⟩
        rw [show ((stop : Int) - start + 1).toNat = stop - start + 1 by omega]
    · have hregister : register first last bus.devices.size (bus.beside (.ram memory)) =
          .error .invalidRange (bus.beside (.ram memory)) := by
        simp only [register, if_neg hrange]
      rw [if_pos hrange, serve_error (hp.trans (bind_error hregister))]
      exact ⟨rfl, (hr.beside _).unregistered fun hc => hrange ⟨hc.1, hc.2.1⟩⟩
  · have hcreate : (MonadExcept.ofExcept (Ram.create (some size)) : BusM h Ram) bus =
        .error .ramSize bus := by
      rw [Ram.create, if_neg hz]
      rfl
    rw [if_pos hz, serve_error (bind_error hcreate)]
    exact ⟨rfl, hr.unregistered fun hc => by omega⟩

/-- Every request is answered from what was asked for before, and what the bus keeps is then what
this request leaves of it. -/
theorem Recalls.serve (hr : bus.Recalls past) (request : Request) :
    (bus.serve request).1 = expected past request ∧
      (bus.serve request).2.Recalls (request :: past) := by
  cases request with
  | map first last size => exact hr.serve_map first last size
  | peek address => exact hr.serve_peek address
  | read address => exact hr.serve_read address
  | load address data => exact hr.serve_load address data
  | write address data => exact hr.serve_write address data

end Step

section Run

theorem Recalls.empty (ports : List (Int × h.Port)) (log : List Access) (shared : h.Shared) :
    Recalls { ports, log, shared } [] where
  separate := ⟨List.nodup_nil, fun _ hm => absurd hm List.not_mem_nil⟩
  ranges := fun _ hm => absurd hm List.not_mem_nil
  bytes address := (if_neg (not_mapped_nil address)).symm

theorem Recalls.after (hr : bus.Recalls past) (later : List Request) :
    (bus.after later).Recalls (later ++ past) := by
  induction later with
  | nil => exact hr
  | cons request later ih => exact (ih.serve request).2

/-- A byte stays until something is stored over it, whatever is mapped meanwhile. -/
theorem lastStored_append {later : List Request}
    (hl : ∀ request ∈ later, ¬request.StoresAt address) :
    lastStored address (later ++ past) = lastStored address past := by
  induction later with
  | nil => rfl
  | cons request later ih =>
    rw [List.forall_mem_cons] at hl
    rw [List.cons_append, lastStored_of_not_stored (Request.stored?_eq_none hl.1)]
    exact ih hl.2

theorem expected_append (hm : Mapped past address) {later : List Request}
    (hl : ∀ request ∈ later, ¬request.StoresAt address) :
    expected (later ++ past) (.peek address) = expected past (.peek address) := by
  rw [expected, expected, if_pos hm, if_pos (hm.append later), lastStored_append hl]

theorem Recalls.mapped_iff (hr : bus.Recalls past) (address : Int) :
    Mapped past address ↔ ∃ region ∈ bus.regions, region.Covers address := by
  rw [← hr.separate.byteAt_isSome_iff, hr.bytes]
  by_cases hm : Mapped past address <;> simp [hm]

theorem Recalls.memorySize_spec (hr : bus.Recalls past) :
    bus.memorySize = 0 ∧ (∀ address, ¬Mapped past address) ∨
      IsGreatest {address | Mapped past address} (bus.memorySize - 1) := by
  have hbelow : ∀ address, Mapped past address → address ≤ (bus.memorySize : Int) - 1 := by
    intro address hm
    obtain ⟨region, hmem, hc⟩ := (hr.mapped_iff address).mp hm
    have hlast := last_lt_memorySize hmem
    unfold Region.Covers at hc
    omega
  by_cases hz : bus.memorySize = 0
  · refine .inl ⟨hz, fun address hm => ?_⟩
    obtain ⟨region, -, hc⟩ := (hr.mapped_iff address).mp hm
    have hle := hbelow address hm
    unfold Region.Covers at hc
    omega
  · obtain ⟨region, hmem, hsize⟩ := exists_last hz
    have hrange := hr.ranges region hmem
    refine .inr ⟨(hr.mapped_iff _).mpr ⟨region, hmem, ?_⟩, hbelow⟩
    unfold Region.Covers
    omega

theorem Recalls.gapFree (hr : bus.Recalls past)
    (hm : ∀ address : Nat, address < bus.memorySize → Mapped past address) : bus.GapFree where
  toSeparate := hr.separate
  covered address ha := (hr.mapped_iff address).mp (hm address ha)

theorem Recalls.contents_eq_ok (hr : bus.Recalls past) {bytes : List UInt8} {next : Bus h}
    (hc : Bus.contents bus = .ok bytes next) :
    bytes.length = bus.memorySize ∧ ∀ address : Nat, address < bus.memorySize →
      Mapped past address ∧ bytes[address]? = some (lastStored address past) := by
  obtain ⟨hlength, hbytes⟩ := hr.separate.peekRange_eq_ok hc
  refine ⟨hlength, fun address ha => ?_⟩
  have hb := hbytes address ha
  rw [Int.zero_add, hr.bytes] at hb
  by_cases hm : Mapped past address
  · rw [if_pos hm] at hb
    exact ⟨hm, hb.symm⟩
  · rw [if_neg hm, List.getElem?_eq_getElem (hlength ▸ ha)] at hb
    cases hb

theorem Recalls.contents_iff (hr : bus.Recalls past) :
    (∃ bytes next, Bus.contents bus = .ok bytes next) ↔
      ∀ address : Nat, address < bus.memorySize → Mapped past address := by
  constructor
  · rintro ⟨bytes, next, hc⟩ address ha
    exact ((hr.contents_eq_ok hc).2 address ha).1
  · intro hm
    exact ⟨_, _, (hr.gapFree hm).holds.contents⟩

/-- A bus on which memories were mapped, in any order and with any overlap, and were accessed in
between, is a store of cells that know nothing of each other.  A request is answered from the
requests before it: an address is served if it was mapped, and it shows what was stored there last,
or zero.  As long as nothing else is stored there, it keeps that byte.  The size of memory is given
by the greatest address that was mapped, and memory can be dumped if there are no gaps below. -/
theorem bus_is_store_of_cells (ports : List (Int × h.Port)) (log : List Access)
    (shared : h.Shared) (past : List Request) :
    let bus := ({ ports, log, shared } : Bus h).after past
    (∀ request, (bus.serve request).1 = expected past request) ∧
    (∀ later address, Mapped past address → (∀ request ∈ later, ¬request.StoresAt address) →
      ((bus.after later).serve (.peek address)).1 = (bus.serve (.peek address)).1) ∧
    (bus.memorySize = 0 ∧ (∀ address, ¬Mapped past address) ∨
      IsGreatest {address | Mapped past address} (bus.memorySize - 1)) ∧
    ((∃ bytes next, Bus.contents bus = .ok bytes next) ↔
      ∀ address : Nat, address < bus.memorySize → Mapped past address) ∧
    (∀ bytes next, Bus.contents bus = .ok bytes next →
      bytes.length = bus.memorySize ∧
      ∀ address : Nat, address < bus.memorySize →
        (bus.serve (.peek address)).1 = .ok bytes[address]?) := by
  intro bus
  have hr : bus.Recalls past := by
    have hr := (Recalls.empty ports log shared).after past
    rwa [List.append_nil] at hr
  refine ⟨fun request => (hr.serve request).1, ?_, hr.memorySize_spec, hr.contents_iff, ?_⟩
  · intro later address hm hl
    rw [((hr.after later).serve _).1, (hr.serve _).1, expected_append hm hl]
  · intro bytes next hc
    obtain ⟨hlength, hbytes⟩ := hr.contents_eq_ok hc
    refine ⟨hlength, fun address ha => ?_⟩
    obtain ⟨hm, hb⟩ := hbytes address ha
    rw [(hr.serve _).1, expected, if_pos hm, hb]

example :
    let past := [.peek 3, .load 3 9, .map 2 6 5, .write 4 300, .write 3 7, .map 0 4 5]
    let bus := ({ shared := () } : Bus bench).after past
    bus.memorySize = 7 ∧ (bus.serve (.read 3)).1 = .ok (some 9) ∧
      (bus.serve (.read 4)).1 = .ok (some 0) ∧ (bus.serve (.peek 7)).1 = .error (.unmapped 7) := by
  decide

end Run

end ByteMachine.Bus
