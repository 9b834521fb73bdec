import ByteMachine.Proofs.Bootstrap.Kernel
import ByteMachine.Proofs.Machine.Equipped
import ByteMachine.Proofs.System.Resume

/-!
Suspending a kernel and starting it again.  A kernel that has jumped to the exit halts the machine;
all that is left of it is the image, and a system that is built from the image enters the kernel
again with two new operands.
-/

namespace ByteMachine

/-- Saved at a fresh path, the image is loaded again as it was. -/
def Image.Reloads (image : Image) : Prop :=
  ∀ (tree : FileTree) (place : Value) (path : List UInt8) (directory : Place) (name : FileName),
    place.target = .ok (.path path) → tree.Fresh path directory name →
    ∃ saved, (Image.save tree place image).2 = .ok saved ∧
      (Image.load saved place image.size).2 = .ok image

theorem Image.reloads_of_inside {image : Image} (hpc : 0 ≤ image.pc ∧ image.pc < image.size)
    (hz : image.size ≤ Bootstrap.largestMemory) : image.Reloads := by
  intro tree place path directory name ht hf
  have he : image.Encodable := by
    unfold Image.Encodable Image.Header.byteCount
    unfold Bootstrap.largestMemory at hz
    omega
  obtain ⟨saved, hsave, hload⟩ := load_saved he ht hf
  rw [if_pos hpc.2] at hload
  exact ⟨saved, hsave, hload⟩

namespace Bootstrap

open Flat Console

variable {m : Machine} {memory : List UInt8} {k : UInt8}

/-- The kernel has jumped to the exit.  Of the bootstrap program only the end has to be left, and
the two cells that it has set. -/
structure AtExit (m : Machine) (memory : List UInt8) (k : UInt8) : Prop where
  running : m.status = .running
  pc : m.cpu.pc = exitAddress
  contents : Bus.contents m.bus = .ok memory m.bus
  program : ∃ bytes, program memory.length = .ok bytes ∧
    ∀ i : Nat, warmStart ≤ i → i < bytes.length → memory[i]? = bytes[i]?
  restart : memory[(restartAddress memory.length).toNat]? = some (.ofNat warmStart)
  start : memory[(variablesAddress memory.length).toNat]? = some k

structure Reentered (m : Machine) (memory : List UInt8) (k : UInt8) (a b : Int) : Prop where
  running : m.status = .running
  pc : m.cpu.pc = k.toNat
  first : m.cpu.registers[2] = a % 256
  second : m.cpu.registers[6] = b % 256
  exit : m.cpu.registers[3] = exitAddress
  behind : m.cpu.registers[7] = restartAddress memory.length + 1
  contents : Bus.contents m.bus = .ok memory m.bus

/-- Every system that is built from the image and finds two numbers to read enters the kernel again,
and has read no further than that. -/
def Restarts (image : Image) (k : UInt8) : Prop :=
  ∀ (config : Config) (files : FileTree) (console after : Console) (a b : Int),
    config.check = .ok () → config.memorySize = image.size → console.Reads [a, b] after →
    ∃ machine snapshots last, (config.build files (some image) console).2 = .ok machine ∧
      Machine.steps 6 machine = .ok snapshots last ∧
      (∀ snapshot ∈ snapshots, snapshot.fault = none) ∧ Reentered last image.memory k a b ∧
      last.console.remaining = after.remaining

section Exit

variable (h : AtExit m memory k) (hs : Roomy memory.length)
include h hs

theorem AtExit.code_at {i : Nat} (hlow : warmStart ≤ i) (hhigh : i < 51) :
    memory[i]? = (code memory.length)[i]? := by
  obtain ⟨bytes, hprogram, hbytes⟩ := h.program
  have hplaces := hs.places
  rw [program_eq (by omega) hs.2] at hprogram
  cases hprogram
  exact hbytes i hlow hhigh

theorem AtExit.restartCode :
    (memory.take 51).drop warmStart = Bootstrap.restartCode memory.length := by
  rw [← drop_code]
  apply List.ext_getElem?
  intro i
  rw [List.getElem?_drop, List.getElem?_drop, List.getElem?_take]
  by_cases hi : warmStart + i < 51
  · rw [if_pos hi]
    exact h.code_at hs (by omega) hi
  · rw [if_neg hi]
    exact (List.getElem?_eq_none (by rw [code_length]; omega)).symm

theorem AtExit.suspends : memory[exitAddress]? = some 0 :=
  (h.code_at hs (by decide) (by decide)).trans rfl

theorem AtExit.scratch : memory[scratchCell memory.length]? = some k := by
  have hplaces := hs.places
  have hstart := h.start
  rw [variablesAddress_eq (by omega), Int.toNat_natCast] at hstart
  exact hstart

theorem AtExit.mark : memory[restartCell memory.length]? = some (.ofNat warmStart) := by
  have hplaces := hs.places
  have hrestart := h.restart
  rw [restartAddress_eq (by omega), Int.toNat_natCast] at hrestart
  exact hrestart

end Exit

theorem AtExit.halts (h : AtExit m memory k) (hs : Roomy memory.length) (he : m.Equipped) :
    ∃ snapshot halted, Machine.step m = .ok snapshot halted ∧ snapshot.fault = none ∧
      halted.status = .halted ∧ halted.cpu.pc = exitAddress + 1 ∧
      Machine.takeImage halted = .ok ⟨exitAddress + 1, memory⟩ halted := by
  obtain ⟨snapshot, halted, hstep, hmirrors⟩ := he.step_mirrors
  have hcells : m.marked.memory = memory := by
    have hm := h.contents
    rw [he.memory.holds.contents] at hm
    cases hm
    rfl
  have hopcode : m.marked.memory[exitAddress]? = some 0 := by
    rw [hcells]
    exact h.suspends hs
  obtain ⟨hfault, hstatus, hpc, hmemory⟩ :=
    step_stops (s := m.marked) h.running h.pc hopcode (by decide)
  have hend : halted.cpu.pc = exitAddress + 1 := hmirrors.pc.trans hpc
  have hholds : halted.bus.Holds m.marked.step.next.memory := hmirrors.shows.memory
  rw [hmemory, hcells] at hholds
  refine ⟨snapshot, halted, hstep, ?_, hmirrors.status.trans hstatus, hend, ?_⟩
  · rw [hmirrors.fault, hfault]
    rfl
  · rw [takeImage_holds hholds, hend]

section Reentry

variable {image : Image} {console : Console} {left : List UInt8} {a b : Int} {s : Flat}
  {flags : Nat}

theorem start_fits_own (image : Image) (console : Console) {length place : Nat}
    (hl : length ≤ image.memory.length) (hpc : image.pc = place) :
    (image.start console).Fits (image.memory.take length)
      ⟨place, 0, (image.start console).cell?, console.remaining⟩ := by
  refine ⟨rfl, hpc, rfl, ?_, rfl, rfl⟩
  rw [List.length_take, Nat.min_eq_left hl]
  rfl

theorem Reentered.of_fits {bytes : List UInt8} (hs : Roomy image.size) (hl : 51 ≤ bytes.length)
    (hstart : (image.start console).Fits bytes
      ⟨49, 0, (image.start console).cell?, console.remaining⟩)
    (hend : s.Fits bytes
      ⟨k.toNat, flags, restarted image.size (image.start console).cell? a b, left⟩)
    (hm : m.Shows s) : Reentered m image.memory k a b := by
  have hplaces := hs.places
  have hregister : ∀ (i : Nat) (hi : i < registerCount) (byte : UInt8),
      restarted image.size (image.start console).cell? a b i = some byte →
      m.cpu.registers[i] = byte.toNat := by
    intro i hi byte hc
    rw [hm.register i hi, hend.register_cell hi hc]
  have hmemory : s.memory = image.memory :=
    hstart.same_memory hend (by unfold registerCount; omega) fun i hi => restarted_other hi
  have hbehind : ((UInt8.ofNat (restartCell image.size + 1)).toNat : Int) =
      restartAddress image.size + 1 := by
    rw [UInt8.toNat_ofNat_of_lt' (show restartCell image.size + 1 < 256 by omega),
      restartAddress_eq (by omega)]
    rfl
  constructor
  · exact hm.status.trans hend.running
  · exact hm.pc.trans hend.pc
  · exact (hregister 2 (by decide) _ rfl).trans (toNat_ofInt a)
  · exact (hregister 6 (by decide) _ rfl).trans (toNat_ofInt b)
  · exact hregister 3 (by decide) _ rfl
  · exact (hregister 7 (by decide) _ rfl).trans hbehind
  · rw [← hmemory]
    exact hm.memory.contents

theorem AtExit.restarts (h : AtExit m memory k) (hs : Roomy memory.length) :
    Restarts ⟨exitAddress + 1, memory⟩ k := by
  intro config files console after a b hc hz hreads
  have hplaces := hs.places
  let image : Image := ⟨exitAddress + 1, memory⟩
  have hcell : ∀ i, registerCount ≤ i → (image.start console).cell? i = memory[i]? := by
    intro i hi
    exact dif_neg (Nat.not_lt.mpr hi)
  have hscratch : (image.start console).cell? (scratchCell memory.length) =
      some (.ofNat k.toNat) := by
    rw [hcell _ (by unfold registerCount; omega), h.scratch hs, UInt8.ofNat_toNat]
  have hmark : (image.start console).cell? (restartCell memory.length) =
      some (.ofNat warmStart) := by
    rw [hcell _ (by unfold registerCount; omega), h.mark hs]
  have hfull : Full memory.length (image.start console).cell? :=
    full_start (show image.size = memory.length from rfl) console
  have hrun := resume_executes 0 hs hfull (h.restartCode hs) hreads.numbers k.toNat_lt hscratch
    hmark
  obtain ⟨machine, hb, hm⟩ := build_given files config image console hc hz.symm
  have hstart : (image.start console).Fits (memory.take 51)
      ⟨49, 0, (image.start console).cell?, console.remaining⟩ :=
    start_fits_own image console (show 51 ≤ memory.length by omega) rfl
  obtain ⟨hend, hquiet⟩ := hrun _ hstart
  obtain ⟨last, hsteps, hlast⟩ := steps_shows hm 6
  have hlength : 51 ≤ (memory.take 51).length := by
    rw [List.length_take]
    omega
  have hentered : Reentered last image.memory k a b := .of_fits hs hlength hstart hend hlast
  exact ⟨machine, _, last, hb, hsteps, hquiet, hentered, hlast.input.trans hend.input⟩

end Reentry

/-- A kernel that is suspended at the exit can be saved, loaded and started again with two new
operands.  All that the bootstrap program needs for this is in memory; registers and flags are lost
on the way. -/
theorem suspended_kernel_restarts {pc : Int} {built : Image}
    (hi : Bootstrap.image memory.length pc = .ok built) (he : m.Equipped)
    (h : AtExit m memory k) :
    ∃ snapshot halted image, Machine.step m = .ok snapshot halted ∧ snapshot.fault = none ∧
      halted.status = .halted ∧ halted.cpu.pc = exitAddress + 1 ∧
      Machine.takeImage halted = .ok image halted ∧ image.pc = exitAddress + 1 ∧
      image.memory = memory ∧ image.Reloads ∧ Restarts image k := by
  obtain ⟨length, hlength, hs, -⟩ := image_eq hi
  have hsame : memory.length = length := Int.ofNat.inj hlength
  rw [← hsame] at hs
  have hplaces := hs.places
  obtain ⟨snapshot, halted, hstep, hfault, hstatus, hpc, himage⟩ := h.halts hs he
  have hinside : 0 ≤ (exitAddress : Int) + 1 ∧ (exitAddress : Int) + 1 < memory.length := by
    unfold exitAddress
    omega
  exact ⟨snapshot, halted, _, hstep, hfault, hstatus, hpc, himage, rfl, rfl,
    Image.reloads_of_inside hinside hs.2, h.restarts hs⟩

def bootedMemory : List UInt8 := ((Bootstrap.memory 64).set 56 34).set 60 51

theorem bootedMemory_length : bootedMemory.length = 64 := by
  unfold bootedMemory
  rw [List.length_set, List.length_set]
  exact memory_length (by unfold Roomy; decide)

theorem suspended_kernel_restarts_booted :
    ∃ machine built,
      (Config.build {} { memorySize := 64 } (some ⟨48, bootedMemory⟩) {}).2 = .ok machine ∧
      Bootstrap.image bootedMemory.length 0 = .ok built ∧ machine.Equipped ∧
      AtExit machine bootedMemory 51 ∧
      ∃ snapshot halted image, Machine.step machine = .ok snapshot halted ∧
        snapshot.fault = none ∧ halted.status = .halted ∧ halted.cpu.pc = exitAddress + 1 ∧
        Machine.takeImage halted = .ok image halted ∧ image.pc = exitAddress + 1 ∧
        image.memory = bootedMemory ∧ image.Reloads ∧ Restarts image 51 := by
  have hlength := bootedMemory_length
  obtain ⟨machine, hb, hm⟩ := build_given {} { memorySize := 64 } ⟨48, bootedMemory⟩ {} rfl
    (congrArg Nat.cast hlength)
  have hi : Bootstrap.image bootedMemory.length 0 = .ok ⟨0, Bootstrap.memory 64⟩ := by
    rw [hlength]
    rfl
  have hprogram : ∀ i : Nat, warmStart ≤ i → i < (code 64).length →
      bootedMemory[i]? = (code 64)[i]? := by
    intro i _ hhigh
    rw [code_length] at hhigh
    rw [bootedMemory, List.getElem?_set_ne (by omega), List.getElem?_set_ne (by omega)]
    exact List.getElem?_append_left hhigh
  have hexit : AtExit machine bootedMemory 51 := by
    constructor
    · exact hm.status
    · exact hm.pc
    · exact hm.memory.contents
    · rw [hlength]
      exact ⟨code 64, program_eq (by decide) (by decide), hprogram⟩
    · rfl
    · rfl
  exact ⟨machine, _, hb, hi, hm.equipped, hexit,
    suspended_kernel_restarts hi hm.equipped hexit⟩

end Bootstrap

end ByteMachine
