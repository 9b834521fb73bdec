import ByteMachine.Proofs.Flat.Invariant
import ByteMachine.Proofs.Flat.Refinement
import ByteMachine.Proofs.Image.Encoding
import ByteMachine.Proofs.Machine.Course
import ByteMachine.Proofs.System.Assembly

/-!
No system that has been built ever fails.  Whatever bytes its memory is made of, every step ends
with a snapshot and leaves the machine within its bounds.
-/

namespace ByteMachine

variable {config : Config} {files : FileTree} {image : Image} {given : Option Image}
  {console : Console} {machine m : Machine} {s : Flat} {size : Nat}

theorem bootstrap_fits {size pc : Int} (h : Bootstrap.image size pc = .ok image) :
    image.Fits size := by
  unfold Bootstrap.image at h
  split at h
  · cases h
  split at h
  · cases h
  next hpc =>
    rw [not_not] at hpc
    split at h
    · cases h
    split at h
    · cases h
    next bytes _ hend =>
      cases h
      refine ⟨hpc, ?_⟩
      unfold Bootstrap.restartAddress Bootstrap.variablesAddress at hend
      rw [Image.size, List.length_append, List.length_replicate]
      omega

theorem initialImage_cases (h : (config.initialImage files).2 = .ok image) :
    config.check = .ok () ∧
      ((Image.load files config.load config.memorySize).2 = .ok image ∨
        Bootstrap.image config.memorySize config.initialPc = .ok image) := by
  unfold Config.initialImage at h
  cases hc : config.check with
  | error e => simp [hc] at h
  | ok _ =>
    refine ⟨rfl, ?_⟩
    simp only [hc] at h
    by_cases ht : config.load.truthy
    · rw [if_pos ht] at h
      cases hl : (Image.load files config.load config.memorySize).2 with
      | error e => simp [hl, Except.mapError] at h
      | ok loaded =>
        simp only [hl, Except.mapError, Except.ok.injEq] at h
        exact .inl (congrArg Except.ok h)
    · rw [if_neg ht] at h
      cases hb : Bootstrap.image config.memorySize config.initialPc with
      | error e => simp [hb, Except.mapError] at h
      | ok built =>
        simp only [hb, Except.mapError, Except.ok.injEq] at h
        exact .inr (congrArg Except.ok h)

theorem initialImage_check (h : (config.initialImage files).2 = .ok image) :
    config.check = .ok () :=
  (initialImage_cases h).1

theorem build_initial {notices : List Notice}
    (hi : config.initialImage files = (notices, .ok image)) (console : Console) :
    (config.build files none console).2 =
      config.assemble image (notices.foldl Console.report console) := by
  have hc : config.check = .ok () := initialImage_check (by rw [hi])
  simp only [Config.build, hc, hi]
  cases config.assemble image (notices.foldl Console.report console) <;> rfl

theorem initialImage_fits (h : (config.initialImage files).2 = .ok image) :
    image.Fits config.memorySize := by
  rcases (initialImage_cases h).2 with hl | hb
  · exact Image.load_fits hl
  · exact bootstrap_fits hb

/-- The bounds of a machine that runs in a memory of the given size. -/
structure Machine.Sound (m : Machine) (size : Int) : Prop where
  registers : ∀ register ∈ m.cpu.registers, 0 ≤ register ∧ register ≤ 255
  flags : 0 ≤ m.cpu.flags ∧ m.cpu.flags ≤ 3
  memory : ∃ bytes, Bus.contents m.bus = .ok bytes m.bus ∧ bytes.length = size
  pc : 0 ≤ m.cpu.pc ∧ m.cpu.pc ≤ 255
  halted : m.status = .halted → 1 ≤ m.cpu.pc ∧ m.cpu.pc ≤ size

theorem Machine.Shows.sound (h : m.Shows s) (hs : s.Sound size) : m.Sound size where
  registers := h.regular.registers
  flags := by
    have hf := hs.flags
    rw [h.flags]
    omega
  memory := ⟨s.memory, h.memory.contents, congrArg Nat.cast hs.memory⟩
  pc := by
    rw [h.pc]
    exact hs.pc
  halted := by
    rw [h.pc, h.status]
    intro hh
    obtain ⟨place, hp⟩ := hs.halted hh
    have hin := hp.inside
    rw [hp.pc]
    rw [hs.memory] at hin
    omega

theorem start_sound (h : 0 ≤ image.pc ∧ image.pc ≤ 255) :
    (image.start console).Sound image.size where
  memory := rfl
  flags := Nat.zero_le 3
  pc := h
  halted := by
    intro hh
    cases hh

/-- Whoever builds a system with an image of his own has put its program counter inside it. -/
def StartsInside (given : Option Image) : Prop :=
  ∀ image, given = some image → 0 ≤ image.pc ∧ image.pc < image.size

/-- A system that is built shows a flat machine within its bounds. -/
theorem build_sound (hb : (config.build files given console).2 = .ok machine)
    (hg : StartsInside given) :
    ∃ image : Image, machine.Shows (image.start console) ∧
      (image.start console).Sound image.size ∧
      image.size ≤ 128 ∧ image.size = config.memorySize := by
  obtain ⟨image, hi, hc, hz, hs⟩ := build_shows hb
  have hsize : config.memorySize ≤ 128 := (check_range hc).2
  have hpc : 0 ≤ image.pc ∧ image.pc < config.memorySize := by
    rcases hi with hi | ⟨-, hi⟩
    · rw [← hz]
      exact hg image hi
    · exact (initialImage_fits hi).pc
  exact ⟨image, hs, start_sound (by omega), by omega, hz⟩

/-- A step of this machine succeeds, and if the machine was running, the snapshot of the step shows
a fault exactly if it shows a machine that has faulted. -/
def Machine.StepsHonestly (m : Machine) : Prop :=
  ∃ snapshot next, step m = .ok snapshot next ∧ snapshot.status = next.status ∧
    (m.status = .running → (snapshot.fault.isSome ↔ snapshot.status = .faulted))

theorem Machine.Shows.stepsHonestly (h : m.Shows s) (hs : s.Sound size) (hz : size ≤ 255) :
    m.StepsHonestly := by
  obtain ⟨next, hstep, hn⟩ := step_shows h
  refine ⟨_, next, hstep, hn.status.symm, ?_⟩
  intro hr
  have hf := Flat.step_fault_iff hs hz (h.status.symm.trans hr)
  rw [Flat.Outcome.snapshot, Option.isSome_map]
  exact hf

/-- From this machine on nothing fails.  However often it is stepped, it stays within its bounds,
and a run is a number of steps that ends at its limit or with a machine that has stopped. -/
structure Machine.Safe (machine : Machine) (size : Int) : Prop where
  steps : ∀ count, ∃ snapshots m, Machine.steps count machine = .ok snapshots m ∧
    m.Sound size ∧ m.StepsHonestly
  run : ∀ {κ ω : Type} (notify : κ → Snapshot → SessionM κ ω Unit) (context : ω) (limit : Nat),
    ∃ result session snapshots,
      Session.run notify limit ⟨machine, [], context⟩ = .ok result session ∧
      Machine.steps result.steps machine = .ok snapshots session.machine ∧
      result.steps ≤ limit ∧ result.last = snapshots.getLast? ∧
      result.status = session.machine.status ∧ (result.status = .running → result.steps = limit)

theorem Machine.Shows.safe (h : m.Shows s) (hs : s.Sound size) (hz : size ≤ 255) : m.Safe size where
  steps := by
    intro count
    obtain ⟨next, hsteps, hn⟩ := steps_shows h count
    have hafter := Flat.after_sound hs hz count
    exact ⟨_, next, hsteps, hn.sound hafter, hn.stepsHonestly hafter hz⟩
  run := by
    intro κ ω notify context limit
    obtain ⟨snapshots, last, hc⟩ := (h.poised hs.pc.1).course limit
    obtain ⟨result, hrun, hcovers⟩ :=
      Session.run_course (Session.nobody_amounts notify) hc context
    refine ⟨result, ⟨last, [], context⟩, snapshots, hrun, ?_, ?_, hcovers.last, hcovers.status, ?_⟩
    · rw [hcovers.steps]
      exact hc.steps
    · rw [hcovers.steps]
      exact hc.length_le
    · intro hr
      rw [hcovers.status] at hr
      rw [hcovers.steps]
      exact hc.full hr

/-- No system that has been built ever fails, whatever its memory and its terminal. -/
theorem built_system_is_safe (hb : (config.build files given console).2 = .ok machine)
    (hg : StartsInside given) : machine.Safe config.memorySize := by
  obtain ⟨image, hs, hsound, hsize, hz⟩ := build_sound hb hg
  rw [← hz]
  exact hs.safe hsound (by omega)

/-- A program that reads a number and then runs out of memory. -/
theorem built_system_is_safe_tiny :
    ∃ machine, (Config.build {} { memorySize := 3 } (some ⟨0, [7, 1, 10]⟩) { unread := [52] }).2 =
      .ok machine ∧ StartsInside (some ⟨0, [7, 1, 10]⟩) ∧ machine.Safe 3 := by
  obtain ⟨machine, hb, -⟩ := build_given {} { memorySize := 3 } ⟨0, [7, 1, 10]⟩ { unread := [52] }
    rfl rfl
  have hg : StartsInside (some ⟨0, [7, 1, 10]⟩) := by
    intro image hi
    cases hi
    decide
  exact ⟨machine, hb, hg, built_system_is_safe hb hg⟩

end ByteMachine
