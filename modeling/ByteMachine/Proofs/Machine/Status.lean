import ByteMachine.Proofs.Machine.Alike
import ByteMachine.Proofs.Machine.Layout

/-!
The status of a machine.  Only an instruction that stops the machine changes it, or a fault; so the
snapshot of a step shows a fault exactly if the step leaves the machine faulted.
-/

namespace ByteMachine

open Machine

variable {α : Type} {m next : Machine} {snapshot : Snapshot} {operation : Operation}

theorem settle_unfaulted (h : settle operation m = .ok () next) (hm : m.status ≠ .faulted) :
    next.status ≠ .faulted := by
  obtain ⟨opcode, bytes, instruction⟩ := operation
  cases instruction with
  | halt | suspend =>
    cases h
    nofun
  | _ =>
    cases h
    exact hm

theorem executeOperation_unfaulted (h : executeOperation operation m = .ok () next)
    (hm : m.status ≠ .faulted) : next.status ≠ .faulted := by
  obtain ⟨pc, first, hpc, h⟩ := bind_eq_ok h
  obtain ⟨_, moved, hmoved, h⟩ := bind_eq_ok h
  obtain ⟨_, executed, hexecuted, h⟩ := bind_eq_ok h
  refine settle_unfaulted h ?_
  have hfirst : first.status = m.status := readPc_retains.ok hpc
  rw [(status_overlooks.execute _).ok hexecuted, (status_overlooks.modifyCpu _).ok hmoved, hfirst]
  exact hm

theorem catchFault_eq_ok {action : MachineM α} {value : α}
    (h : catchFault action m = .ok (.ok value) next) : action m = .ok value next := by
  unfold catchFault at h
  split at h <;> cases h
  assumption

theorem cycle_unfaulted {decoded : Option Operation} (h : cycle m = .ok (decoded, none) next)
    (hm : m.status ≠ .faulted) : next.status ≠ .faulted := by
  obtain ⟨fetched, started, hf, h⟩ := bind_eq_ok h
  cases fetched with
  | error fault => cases h
  | ok operation =>
    obtain ⟨executed, done, he, h⟩ := bind_eq_ok h
    cases executed with
    | error fault => cases h
    | ok =>
      cases h
      refine executeOperation_unfaulted (catchFault_eq_ok he) ?_
      rw [status_overlooks.fetchOperation.ok (catchFault_eq_ok hf)]
      exact hm

theorem snapshot_tells {decoded : Option Operation} {fault : Option FaultReport}
    (h : Machine.snapshot decoded fault m = .ok snapshot next) :
    snapshot.status = next.status ∧ next.status = m.status ∧ snapshot.fault = fault := by
  have hkept := (status_overlooks.snapshot decoded fault).ok h
  obtain ⟨activity, quiet, -, h⟩ := bind_eq_ok h
  obtain ⟨memory, last, -, h⟩ := bind_eq_ok h
  cases h
  exact ⟨rfl, hkept, rfl⟩

/-- A step that is executed shows a fault exactly if it leaves the machine faulted, and then the
program counter that it started from. -/
theorem step_tells (hr : m.status = .running) (h : Machine.step m = .ok snapshot next) :
    snapshot.status = next.status ∧ (snapshot.fault.isSome ↔ next.status = .faulted) ∧
      ∀ report, snapshot.fault = some report → report.pc = m.cpu.pc := by
  obtain ⟨log, quiet, hl, h⟩ := bind_eq_ok h
  obtain ⟨_, _, hget, h⟩ := bind_eq_ok h
  cases hl
  cases hget
  rw [if_pos hr] at h
  obtain ⟨pc, _, hpc, h⟩ := bind_eq_ok h
  cases hpc
  obtain ⟨⟨decoded, fault⟩, done, hc, h⟩ := bind_eq_ok h
  cases fault with
  | none =>
    obtain ⟨_, counted, hcount, h⟩ := bind_eq_ok h
    obtain ⟨hstatus, hsame, hfault⟩ := snapshot_tells h
    cases hcount
    have hstart : m.status ≠ .faulted := by
      rw [hr]
      nofun
    have hdone := cycle_unfaulted hc hstart
    refine ⟨hstatus, ?_, ?_⟩
    · rw [hfault, hsame]
      simpa using hdone
    · rw [hfault]
      nofun
  | some fault =>
    obtain ⟨_, faulted, hf, h⟩ := bind_eq_ok h
    obtain ⟨_, reported, hreport, h⟩ := bind_eq_ok h
    obtain ⟨_, counted, hcount, h⟩ := bind_eq_ok h
    obtain ⟨hstatus, hsame, hfault⟩ := snapshot_tells h
    cases hf
    cases hreport
    cases hcount
    refine ⟨hstatus, ?_, ?_⟩
    · rw [hfault, hsame]
      simp
    · rw [hfault]
      rintro report ⟨⟩
      rfl

end ByteMachine
