import ByteMachine.Proofs.Flat.Output
import ByteMachine.Proofs.Flat.Refinement
import ByteMachine.Proofs.System.Resume

/-!
Installing an image.  The machine is then what the image says, and whatever it did before, halting
and faulting included, has no influence on what it does from then on.
-/

namespace ByteMachine

variable {m m' next next' : Machine} {image : Image} {memory : List UInt8}

/-- The machine stands at the start of the image, and nothing tells what it has done before. -/
structure Machine.StandsAt (m : Machine) (image : Image) : Prop where
  image : Machine.takeImage m = .ok image m
  registers : m.cpu.registers = Vector.replicate registerCount 0
  flags : m.cpu.flags = 0
  status : m.status = .running
  stepCount : m.stepCount = 0

theorem install_standsAt (hm : m.bus.Holds memory) (hz : image.size = memory.length) :
    ∃ next, Machine.install image m = .ok () next ∧ next.StandsAt image := by
  obtain ⟨devices, hi, hnext⟩ := install_holds hm hz
  exact ⟨_, hi, takeImage_holds hnext, rfl, rfl, rfl, rfl⟩

/-- The two machines take the same steps, however many, with the same snapshots.  They write the
same and leave the same input. -/
def Machine.InStep (m m' : Machine) : Prop :=
  ∀ count, ∃ snapshots written last last',
    Machine.steps count m = .ok snapshots last ∧ Machine.steps count m' = .ok snapshots last' ∧
    last.console.programOutput = m.console.programOutput ++ written ∧
    last'.console.programOutput = m'.console.programOutput ++ written ∧
    last'.console.remaining = last.console.remaining

theorem Machine.Shows.inStep {fresh : Flat}
    (h : m.Shows (fresh.behind m.console.programOutput))
    (h' : m'.Shows (fresh.behind m'.console.programOutput)) : m.InStep m' := by
  intro count
  obtain ⟨last, hsteps, hlast⟩ := steps_shows h count
  obtain ⟨last', hsteps', hlast'⟩ := steps_shows h' count
  rw [Flat.snapshots_behind] at hsteps hsteps'
  rw [Flat.after_behind] at hlast hlast'
  exact ⟨fresh.snapshots count, (fresh.after count).output, last, last', hsteps, hsteps',
    hlast.output, hlast'.output, hlast'.input.trans hlast.input.symm⟩

theorem start_behind {console console' : Console} (hr : console'.remaining = console.remaining)
    (hi : console'.interactive = console.interactive) :
    image.start console' =
      Flat.behind console'.programOutput { image.start console with output := [] } := by
  simp only [Image.start, Flat.behind, List.append_nil, hr, hi]

/-- An image of the wrong size is refused, and nothing changes.  Any other image is installed
completely: the machine stands at its start.  Two machines that have the same image installed, with
equally large memories and the same input left, cannot be told apart by their steps, whatever either
of them was and did before. -/
theorem installing_forgets_the_past (h : m.bus.GapFree) (image : Image) :
    (image.size ≠ m.bus.memorySize →
      Machine.install image m = .error (.imageSize image.size m.bus.memorySize) m) ∧
    (image.size = m.bus.memorySize →
      ∃ next, Machine.install image m = .ok () next ∧ next.StandsAt image ∧
        (m.bus.HasConsole → ∀ m' : Machine, m'.bus.GapFree → m'.bus.HasConsole →
          m'.bus.memorySize = m.bus.memorySize →
          m'.console.interactive = m.console.interactive →
          m'.console.remaining = m.console.remaining →
          ∃ next', Machine.install image m' = .ok () next' ∧ next'.StandsAt image ∧
            next.InStep next')) := by
  refine ⟨install_refuses, fun hz => ?_⟩
  have hfits : image.size = m.bus.cells.length := by rw [Bus.cells_length, hz]
  obtain ⟨next, hi, hs⟩ := install_standsAt h.holds hfits
  refine ⟨next, hi, hs, fun hp m' h' hp' hsize hinteractive hremaining => ?_⟩
  have hfits' : image.size = m'.bus.cells.length := by rw [Bus.cells_length, hsize, hz]
  obtain ⟨next', hi', hs'⟩ := install_standsAt h'.holds hfits'
  refine ⟨next', hi', hs', ?_⟩
  obtain ⟨shown, hshown, hshows⟩ := install_shows h.holds hp hfits
  obtain ⟨shown', hshown', hshows'⟩ := install_shows h'.holds hp' hfits'
  rw [hi] at hshown
  rw [hi'] at hshown'
  cases hshown
  cases hshown'
  rw [start_behind rfl rfl] at hshows
  rw [start_behind hremaining hinteractive] at hshows'
  -- Installing writes nothing, so the output of both machines is still that of the past.
  have hwritten : next.console.programOutput = m.console.programOutput := by
    rw [hshows.output, Flat.behind, List.append_nil]
  have hwritten' : next'.console.programOutput = m'.console.programOutput := by
    rw [hshows'.output, Flat.behind, List.append_nil]
  rw [← hwritten] at hshows
  rw [← hwritten'] at hshows'
  exact hshows.inStep hshows'

/-- A machine with overlapping regions, and the same machine after it has written something and has
faulted.  The program that is installed in both reads a byte, stores it and writes it. -/
theorem installing_forgets_the_past_echoing :
    let image : Image := ⟨0, [7, 0, 18, 8, 0, 18, 0, 0, 0, 0]⟩
    let spent : Machine := { echoing with
      cpu := { pc := 99, flags := 3, registers := Vector.replicate registerCount 7 }
      bus := { echoing.bus with shared := echoing.console.put [66] }
      status := .faulted
      stepCount := 5 }
    ∃ next next', Machine.install image echoing = .ok () next ∧ next.StandsAt image ∧
      Machine.install image spent = .ok () next' ∧ next'.StandsAt image ∧ next.InStep next' ∧
      ∃ snapshots last, Machine.steps 3 next = .ok snapshots last ∧ last.status = .halted ∧
        last.bus.byteAt 9 = some 65 ∧ last.console.programOutput = [65] := by
  intro image spent
  have hgapFree := echoing_regular.memory
  have hspent : spent.bus.Holds echoing.bus.cells := hgapFree.holds.congr rfl rfl
  obtain ⟨next, hi, hs, hsame⟩ := (installing_forgets_the_past hgapFree image).2 (by decide)
  obtain ⟨next', hi', hs', hstep⟩ := hsame echoing_regular.ports spent hspent.gapFree
    echoing_regular.ports rfl rfl rfl
  have hruns : ∃ snapshots last,
      (Machine.install image >>= fun _ => Machine.steps 3) echoing = .ok snapshots last ∧
      last.status = .halted ∧ last.bus.byteAt 9 = some 65 ∧
      last.console.programOutput = [65] := Succeeds.exists_ok (by decide +kernel)
  obtain ⟨snapshots, last, hrun, hends⟩ := hruns
  obtain ⟨_, _, hinstalled, hsteps⟩ := bind_eq_ok hrun
  rw [hi] at hinstalled
  cases hinstalled
  exact ⟨next, next', hi, hs, hi', hs', hstep, snapshots, last, hsteps, hends⟩

end ByteMachine
