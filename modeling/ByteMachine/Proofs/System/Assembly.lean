import ByteMachine.Proofs.Flat.Step
import ByteMachine.System
import Mathlib.Tactic.Common

/-!
What building a system results in: one memory without gaps, the console on its channels, and the
machine at the start of the image.
-/

namespace ByteMachine

variable {config : Config} {files : FileTree} {image : Image} {console : Console} {m : Machine}
  {size : Nat}

def Machine.blank (size : Nat) (console : Console) : Machine where
  bus := {
    devices := #[.ram ⟨Array.replicate size 0⟩]
    regions := [⟨0, size - 1, 0⟩]
    ports := [(1, .numeric), (0, .character)]
    shared := console }

theorem create_ok (hz : 0 < size) :
    Ram.create (some size) = .ok ⟨Array.replicate size 0⟩ := by
  rw [Ram.create, if_pos (by omega), Int.toNat_natCast]

theorem register_ok (hz : 0 < size) (console : Console) :
    Bus.register 0 ((size : Int) - 1) 0
        ({ devices := #[.ram ⟨Array.replicate size 0⟩], shared := console } : Bus wiring) =
      .ok () {
        devices := #[.ram ⟨Array.replicate size 0⟩]
        regions := [⟨0, size - 1, 0⟩]
        shared := console } := by
  have hlast : ((size : Int) - 1).toNat = size - 1 := by omega
  have hsize : Ram.size ⟨Array.replicate size 0⟩ = size - 1 - 0 + 1 := by
    simp only [Ram.size, Array.size_replicate]
    omega
  rw [Bus.register, if_pos (by omega), hlast]
  exact if_pos hsize

theorem equip_ok (hz : 0 < size) (console : Console) :
    Machine.equip size { bus := { shared := console } } = .ok () (.blank size console) := by
  have hcreate : (MonadExcept.ofExcept (Ram.create (some size)) : BusM wiring Ram)
      { shared := console } = .ok ⟨Array.replicate size 0⟩ { shared := console } := by
    rw [create_ok hz]
    rfl
  exact Machine.onBus_ok ((bind_ok hcreate).trans (bind_ok (register_ok hz console)))

def Image.start (image : Image) (console : Console) : Flat where
  pc := image.pc
  flags := 0
  registers := Vector.replicate registerCount 0
  memory := image.memory
  input := console.remaining
  output := console.programOutput
  interactive := console.interactive
  status := .running
  stepCount := 0
  activity := []

theorem blank_holds (hz : 0 < size) (console : Console) :
    (Machine.blank size console).bus.Holds (List.replicate size 0) := by
  refine ⟨⟨by simp [Machine.blank], ?_⟩, ?_, ?_⟩
  · intro region hr
    simp only [Machine.blank, List.mem_singleton] at hr
    subst hr
    refine ⟨_, rfl, ?_⟩
    simp only [Ram.size, Array.size_replicate]
    omega
  · simp only [Machine.blank, Bus.memorySize, List.foldl_cons, List.foldl_nil,
      List.length_replicate]
    omega
  · intro address ha
    rw [List.length_replicate] at ha
    have hfind : (Machine.blank size console).bus.regions.find? (·.Covers address) =
        some ⟨0, size - 1, 0⟩ := by
      have hcovers : Region.Covers ⟨0, size - 1, 0⟩ address := by
        refine ⟨?_, ?_⟩ <;> simp only <;> omega
      exact List.find?_cons_of_pos (decide_eq_true hcovers)
    have hlocate : (Machine.blank size console).bus.locate address =
        some (0, Device.ram ⟨Array.replicate size 0⟩, (address : Int)) := by
      simp only [Bus.locate, hfind]
      simp [Machine.blank]
    simp [Bus.byteAt, hlocate, ha]

theorem blank_hasConsole (size : Nat) (console : Console) :
    (Machine.blank size console).bus.HasConsole :=
  Bus.hasConsole rfl

theorem start_cpu (image : Image) (console : Console) :
    (image.start console).cpu = { pc := image.pc } := by
  simp only [Flat.cpu, Image.start, Vector.map_replicate]
  rfl

theorem install_holds {memory : List UInt8} (hm : m.bus.Holds memory)
    (hz : image.size = memory.length) :
    ∃ devices, Machine.install image m = .ok () {
        cpu := { pc := image.pc }
        bus := { m.bus with devices, shared := m.bus.shared.report (.resuming image.pc) } } ∧
      Bus.Holds { m.bus with devices, shared := m.bus.shared.report (.resuming image.pc) }
        image.memory := by
  have hfits : ¬image.size ≠ m.bus.memorySize := by
    rw [hm.size, hz, not_not]
  have hwhole : m.bus.Holds ([] ++ memory ++ []) := by simpa using hm
  obtain ⟨devices, hload, hnext⟩ := hwhole.loadRange [] memory image.memory [] hz.symm
  rw [List.nil_append, List.append_nil] at hnext
  have hbus : Machine.onBus (Bus.loadRange 0 image.memory) m =
      .ok () { m with bus := { m.bus with devices } } := Machine.onBus_ok hload
  have hget : (get : MachineM Machine) m = .ok m m := rfl
  refine ⟨devices, ?_, hnext.congr rfl rfl⟩
  rw [Machine.install, bind_ok hget]
  dsimp only
  rw [if_neg hfits]
  exact bind_ok hbus

/-- Installing an image puts a machine at the start of it, whatever the machine did before. -/
theorem install_shows {memory : List UInt8} (hm : m.bus.Holds memory) (hp : m.bus.HasConsole)
    (hz : image.size = memory.length) :
    ∃ next, Machine.install image m = .ok () next ∧ next.Shows (image.start m.console) := by
  obtain ⟨devices, hi, hnext⟩ := install_holds hm hz
  exact ⟨_, hi, (start_cpu image m.console).symm, hnext, hp, rfl, rfl, rfl, rfl, rfl⟩

theorem install_refuses (hz : image.size ≠ m.bus.memorySize) :
    Machine.install image m = .error (.imageSize image.size m.bus.memorySize) m := by
  have hget : (get : MachineM Machine) m = .ok m m := rfl
  rw [Machine.install, bind_ok hget]
  dsimp only
  rw [if_pos hz]
  rfl

theorem check_range (h : config.check = .ok ()) :
    0 < config.memorySize ∧ config.memorySize ≤ Bootstrap.largestMemory := by
  unfold Config.check at h
  split at h
  · cases h
  · split at h
    · assumption
    · cases h

theorem assemble_shows (hc : config.check = .ok ()) (hz : image.size = config.memorySize)
    (console : Console) :
    ∃ m, config.assemble image console = .ok m ∧ m.Shows (image.start console) := by
  have hpos := (check_range hc).1
  rw [← hz] at hpos
  have hsize : 0 < image.size := by omega
  have hfits : image.size = (List.replicate image.size (0 : UInt8)).length := by
    rw [List.length_replicate]
  obtain ⟨next, hi, hs⟩ :=
    install_shows (blank_holds hsize console) (blank_hasConsole image.size console) hfits
  refine ⟨next, ?_, hs⟩
  have hrun : (Machine.equip image.size >>= fun _ => Machine.install image)
      { bus := { shared := console } } = .ok () next := (bind_ok (equip_ok hsize console)).trans hi
  rw [Config.assemble, ← hz]
  dsimp only
  rw [hrun]

theorem assemble_size (hc : config.check = .ok ()) (h : config.assemble image console = .ok m) :
    image.size = config.memorySize := by
  have hpos := (check_range hc).1
  obtain ⟨size, hsize⟩ := Int.eq_ofNat_of_zero_le (Int.le_of_lt hpos)
  have hz : 0 < size := by omega
  by_contra hne
  have hm : (Machine.blank size console).bus.memorySize = size :=
    (blank_holds hz console).size.trans List.length_replicate
  have hi : Machine.install image (.blank size console) = .error (.imageSize image.size _) _ :=
    install_refuses (by rw [hm]; omega)
  have hrun : (Machine.equip size >>= fun _ => Machine.install image)
      { bus := { shared := console } } = _ := (bind_ok (equip_ok hz console)).trans hi
  rw [Config.assemble, hsize] at h
  dsimp only at h
  rw [hrun] at h
  cases h

theorem start_reported (image : Image) (console : Console) (notices : List Notice) :
    image.start (notices.foldl Console.report console) = image.start console := by
  induction notices generalizing console with
  | nil => rfl
  | cons notice rest ih => exact ih (console.report notice)

theorem reports_journal (console : Console) (notices : List Notice) :
    ∃ journal, notices.foldl Console.report console = { console with journal } := by
  induction notices generalizing console with
  | nil => exact ⟨console.journal, rfl⟩
  | cons notice rest ih =>
    obtain ⟨journal, h⟩ := ih (console.report notice)
    exact ⟨journal, h⟩

/-- The image that a system starts with: the one it is given, or else the initial one. -/
def Config.StartsWith (config : Config) (files : FileTree) (given : Option Image) (image : Image) :
    Prop :=
  given = some image ∨ given = none ∧ (config.initialImage files).2 = .ok image

theorem build_shows {given : Option Image} (hb : (config.build files given console).2 = .ok m) :
    ∃ image, config.StartsWith files given image ∧ config.check = .ok () ∧
      image.size = config.memorySize ∧ m.Shows (image.start console) := by
  have hassembled : ∀ image (notices : List Notice), config.check = .ok () →
      config.assemble image (notices.foldl Console.report console) = .ok m →
      image.size = config.memorySize ∧ m.Shows (image.start console) := by
    intro image notices hc ha
    have hz := assemble_size hc ha
    obtain ⟨next, hn, hs⟩ := assemble_shows hc hz (notices.foldl Console.report console)
    rw [ha] at hn
    cases hn
    rw [start_reported] at hs
    exact ⟨hz, hs⟩
  unfold Config.build at hb
  cases hc : config.check with
  | error e => simp [hc] at hb
  | ok _ =>
    cases given with
    | some image =>
      simp only [hc] at hb
      cases ha : config.assemble image console with
      | error e => simp [ha] at hb
      | ok next =>
        simp only [List.foldl_nil, ha, Except.ok.injEq] at hb
        subst hb
        exact ⟨image, .inl rfl, rfl, hassembled image [] hc ha⟩
    | none =>
      simp only [hc] at hb
      rcases hi : config.initialImage files with ⟨notices, _ | image⟩
      · simp [hi] at hb
      · simp only [hi] at hb
        cases ha : config.assemble image (notices.foldl Console.report console) with
        | error e => simp [ha] at hb
        | ok next =>
          simp only [ha, Except.ok.injEq] at hb
          subst hb
          exact ⟨image, .inr ⟨rfl, by rw [hi]⟩, rfl, hassembled image notices hc ha⟩

theorem build_given (files : FileTree) (config : Config) (image : Image) (console : Console)
    (hc : config.check = .ok ()) (hz : image.size = config.memorySize) :
    ∃ m, (config.build files (some image) console).2 = .ok m ∧ m.Shows (image.start console) := by
  obtain ⟨m, ha, hs⟩ := assemble_shows hc hz console
  refine ⟨m, ?_, hs⟩
  simp [Config.build, hc, ha]

end ByteMachine
