import ByteMachine.Proofs.Bootstrap.Boot
import ByteMachine.Proofs.System.Assembly

/-!
Booting a kernel, on every machine that is built from a bootstrap image.
-/

namespace ByteMachine.Bootstrap

open Flat Console

variable {size k : Nat} {left : List UInt8}

theorem memory_length (hs : Roomy size) : (memory size).length = size := by
  have hplaces := hs.places
  rw [memory, List.length_append, code_length, List.length_replicate]
  omega

theorem start_fits (size : Nat) (console : Console) :
    (Image.start ⟨0, memory size⟩ console).Fits (code size)
      ⟨0, 0, (Image.start ⟨0, memory size⟩ console).cell?, console.remaining⟩ :=
  ⟨rfl, rfl, rfl, List.take_left, rfl, rfl⟩

theorem full_start {image : Image} (hz : image.size = size) (console : Console) :
    Full size (image.start console).cell? := by
  intro i hi
  unfold cell?
  split
  · rfl
  · have hin : i < image.memory.length := by
      rw [← hz] at hi
      exact hi
    rw [Image.start, List.getElem?_eq_getElem hin]
    rfl

theorem start_full (hs : Roomy size) (console : Console) :
    Full size (Image.start ⟨0, memory size⟩ console).cell? := by
  have hz : Image.size ⟨0, memory size⟩ = size := memory_length hs
  exact full_start hz console

/-- The kernel is in memory, and nothing else has changed but the two cells of the program. -/
structure KernelIn (memory : List UInt8) (image : Image) (k : Nat) (kernel : List Int) : Prop where
  loaded : ∀ i < kernel.length,
    memory[k + i]?.map (fun byte => (byte.toNat : Int)) = kernel[i]?.map (· % 256)
  start : memory[(variablesAddress image.size).toNat]? = some (.ofNat k)
  restart : memory[(restartAddress image.size).toNat]? = some 34
  others : ∀ i : Nat, (i : Int) ≠ variablesAddress image.size →
    (i : Int) ≠ restartAddress image.size → ¬(k ≤ i ∧ i < k + kernel.length) →
    memory[i]? = image.memory[i]?

/-- The machine is about to execute the kernel, with the two operands in their registers. -/
structure Entered (m : Machine) (image : Image) (k : Nat) (kernel : List Int) (a b : Int) :
    Prop where
  running : m.status = .running
  pc : m.cpu.pc = k
  first : m.cpu.registers[2] = a % 256
  second : m.cpu.registers[6] = b % 256
  exit : m.cpu.registers[3] = exitAddress
  behind : m.cpu.registers[7] = restartAddress image.size + 1
  memory : ∃ memory, Bus.contents m.bus = .ok memory m.bus ∧ KernelIn memory image k kernel

section Entering

variable {v : View} {s : Flat} {m : Machine} {kernel : List Int} {a b : Int} {console : Console}

theorem Ready.kernelIn (hs : Roomy size) (hk : 51 ≤ k)
    (h : Ready size k kernel a b (Image.start ⟨0, memory size⟩ console).cell? v.cells)
    (hf : s.Fits (code size) v) : KernelIn s.memory ⟨0, memory size⟩ k kernel := by
  have hplaces := hs.places
  have hsize : Image.size ⟨0, memory size⟩ = size := memory_length hs
  have hcell : ∀ i ≥ 8, s.memory[i]? = v.cells i := fun i hi => hf.memory_cell hi
  have hscratch := variablesAddress_eq (show 8 ≤ size by omega)
  have hrestart := restartAddress_eq (show 8 ≤ size by omega)
  constructor
  · intro i hi
    rw [hcell _ (by omega), h.loaded i hi, Option.map_map]
    congr 1
    funext n
    exact toNat_ofInt n
  · rw [hsize, hscratch, Int.toNat_natCast, hcell _ (by omega)]
    exact h.start
  · rw [hsize, hrestart, Int.toNat_natCast, hcell _ (by omega)]
    exact h.restart
  · intro i hns hnr hout
    rw [hsize] at hns hnr
    by_cases hi : 8 ≤ i
    · rw [hcell i hi, h.others i hi (by omega) (by omega) hout]
      exact (start_fits size console).memory_cell hi |>.symm
    · have hin : i < (code size).length := by
        rw [code_length]
        omega
      rw [hf.memory_code hin]
      exact (start_fits size console).memory_code hin |>.symm

theorem Ready.entered {flags : Nat} {cells' : Nat → Option UInt8} (hs : Roomy size) (hk : 51 ≤ k)
    (h : Ready size k kernel a b (Image.start ⟨0, memory size⟩ console).cell? cells')
    (hf : s.Fits (code size) ⟨k, flags, cells', left⟩) (hm : m.Shows s) :
    Entered m ⟨0, memory size⟩ k kernel a b := by
  have hplaces := hs.places
  have hsize : Image.size ⟨0, memory size⟩ = size := memory_length hs
  have hregister : ∀ (i : Nat) (hi : i < registerCount) (byte : UInt8), cells' i = some byte →
      m.cpu.registers[i] = byte.toNat := by
    intro i hi byte hc
    rw [hm.register i hi, hf.register_cell hi hc]
  have hbehind : ((UInt8.ofNat (restartCell size + 1)).toNat : Int) = restartAddress size + 1 := by
    rw [UInt8.toNat_ofNat_of_lt' (show restartCell size + 1 < 256 by omega),
      restartAddress_eq (by omega)]
    rfl
  refine ⟨hm.status.trans hf.running, hm.pc.trans hf.pc, ?_, ?_, ?_, ?_, ?_⟩
  · exact (hregister 2 (by decide) _ h.first).trans (toNat_ofInt a)
  · exact (hregister 6 (by decide) _ h.second).trans (toNat_ofInt b)
  · exact hregister 3 (by decide) _ h.exit
  · rw [hsize]
    exact (hregister 7 (by decide) _ h.behind).trans hbehind
  · exact ⟨s.memory, hm.memory.contents, h.kernelIn hs hk hf⟩

end Entering

/-- The bootstrap program boots every kernel that fits between itself and the restart cell.  The
numbers that are read are the start and the length of the kernel, its bytes and two operands. -/
theorem bootstrap_enters_kernel {config : Config} {files : FileTree} {image : Image}
    {console after : Console} {machine : Machine} {kernel : List Int} {a b : Int}
    (hi : Bootstrap.image config.memorySize 0 = .ok image)
    (hb : (config.build files (some image) console).2 = .ok machine)
    (hk : 51 ≤ k) (hl : 1 ≤ kernel.length)
    (hfit : (k : Int) + kernel.length ≤ restartAddress config.memorySize)
    (hr : console.Reads (k :: kernel.length :: (kernel ++ [a, b])) after) :
    ∃ snapshots m, Machine.steps (12 + 5 * kernel.length) machine = .ok snapshots m ∧
      (∀ snapshot ∈ snapshots, snapshot.fault = none) ∧ Entered m image k kernel a b ∧
      m.console.remaining = after.remaining := by
  obtain ⟨size, hsize, hs, rfl⟩ := image_eq hi
  obtain ⟨start, hstart | ⟨hnone, -⟩, -, -, hm⟩ := build_shows hb
  · cases hstart
    have hlow : 59 ≤ size := hs.1
    rw [hsize, restartAddress_eq (by omega)] at hfit
    have hne : kernel ≠ [] := List.length_pos_iff.mp hl
    obtain ⟨flags, cells', hrun, hready⟩ :=
      boot_executes hs (start_full hs console) hk hne (by omega) hr.numbers
    obtain ⟨hfits, hquiet⟩ := hrun _ (start_fits size console)
    obtain ⟨m, hsteps, hlast⟩ := steps_shows hm (12 + 5 * kernel.length)
    exact ⟨_, m, hsteps, hquiet, hready.entered hs hk hfits hlast, hlast.input.trans hfits.input⟩
  · cases hnone

/-- A kernel of two bytes for a memory of 64 bytes, with more input behind the operands. -/
theorem bootstrap_enters_kernel_small :
    ∃ image machine after,
      Bootstrap.image 64 0 = .ok image ∧
      (Config.build {} { memorySize := 64 } (some image)
        { unread := asciiBytes "51 2\n300 -1 7 8!" }).2 = .ok machine ∧
      Reads { unread := asciiBytes "51 2\n300 -1 7 8!" } [51, 2, 300, -1, 7, 8] after ∧
      ∃ snapshots m, Machine.steps 22 machine = .ok snapshots m ∧
        (∀ snapshot ∈ snapshots, snapshot.fault = none) ∧ Entered m image 51 [300, -1] 7 8 ∧
        m.console.remaining = after.remaining := by
  have hs : Roomy 64 := by
    unfold Roomy
    decide
  have hi : Bootstrap.image 64 0 = .ok ⟨0, memory 64⟩ := image_roomy hs (by decide)
  obtain ⟨machine, hb, -⟩ := build_given {} { memorySize := 64 } ⟨0, memory 64⟩
    { unread := asciiBytes "51 2\n300 -1 7 8!" } rfl (congrArg Nat.cast (memory_length hs))
  have hnumbers : Numbers [53, 49, 32, 50, 10, 51, 48, 48, 32, 45, 49, 32, 55, 32, 56, 33]
      [51, 2, 300, -1, 7, 8] [33] :=
    .number rfl (.number rfl (.number rfl (.number rfl (.number rfl (.number rfl (.nothing _))))))
  have hinput : Console.remaining { unread := asciiBytes "51 2\n300 -1 7 8!" } =
      [53, 49, 32, 50, 10, 51, 48, 48, 32, 45, 49, 32, 55, 32, 56, 33] := rfl
  obtain ⟨after, hr, -⟩ := hnumbers.reads hinput
  have hkernel : Reads _ ((51 : Nat) :: [300, -1].length :: ([300, -1] ++ [7, 8])) after := hr
  exact ⟨_, machine, after, hi, hb, hr,
    bootstrap_enters_kernel hi hb (by decide) (by decide) (by decide) hkernel⟩

end ByteMachine.Bootstrap
