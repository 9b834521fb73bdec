import ByteMachine.Proofs.Machine.Layout
import ByteMachine.Proofs.Machine.Tracing
import ByteMachine.Trace.Page
import Mathlib.Logic.Relation

/-!
What a dump shows.  Of a snapshot the tracer shows the registers, the flags, the memory and the
status as they were when it was taken.  Only the mnemonic of the next instruction is looked up in
the memory of the machine as it is by then; so this is all in which two dumps of one snapshot can
differ, and they do differ in it if the columns of a table can be read off.
-/

namespace ByteMachine

open Machine

variable {m next first second : Machine} {snapshot : Snapshot}

namespace Machine

/-- Something that happens to a machine.  What fails leaves the machine as far as it has come. -/
inductive Change : Machine → Machine → Prop where
  | step (m : Machine) : Change m (finalState (Machine.step m))
  | write (m : Machine) (address data : Int) :
      Change m (finalState (onBus (Bus.write address data) m))
  | load (m : Machine) (address data : Int) :
      Change m (finalState (onBus (Bus.load address data) m))
  | processor (m : Machine) (cpu : Cpu) (status : Status) (stepCount : Nat) :
      Change m { m with cpu, status, stepCount }
  | terminal (m : Machine) (log : List Access) (console : Console) :
      Change m (m.withTerminal log console)

def Later : Machine → Machine → Prop := Relation.ReflTransGen Change

theorem Change.layout (h : m.Change next) : next.bus.layout = m.bus.layout := by
  cases h with
  | step => exact step_retains m
  | write address data => exact layout_overlooks.onBus (Bus.write_retains address data) m
  | load address data => exact layout_overlooks.onBus (Bus.load_retains address data) m
  | processor => rfl
  | terminal => rfl

theorem Later.layout (h : m.Later next) : next.bus.layout = m.bus.layout := by
  induction h with
  | refl => rfl
  | tail _ hc ih => exact hc.layout.trans ih

/-- A step of the machine, or a look at it between two steps, gives the snapshot. -/
def Gives (m : Machine) (snapshot : Snapshot) (next : Machine) : Prop :=
  Machine.step m = .ok snapshot next ∨ Machine.capture m = .ok snapshot next

theorem Gives.layout (h : m.Gives snapshot next) : next.bus.layout = m.bus.layout := by
  rcases h with h | h
  · exact step_retains.ok h
  · exact (layout_overlooks.snapshot none none).ok h

end Machine

/-- The snapshot shows the machine as it is. -/
structure Snapshot.Portrays (snapshot : Snapshot) (m : Machine) : Prop where
  cpu : snapshot.cpu = m.cpu
  status : snapshot.status = m.status
  stepCount : snapshot.stepCount = m.stepCount
  memory : snapshot.memory = m.bus.cells

theorem snapshot_portrays {operation : Option Operation} {fault : Option FaultReport}
    (hm : m.bus.GapFree) (h : Machine.snapshot operation fault m = .ok snapshot next) :
    snapshot.Portrays next := by
  have hlayout : next.bus.layout = m.bus.layout := (layout_overlooks.snapshot _ _).ok h
  have hnext := (hm.of_layout hlayout).holds.contents
  obtain ⟨activity, quiet, -, h⟩ := bind_eq_ok h
  obtain ⟨memory, last, hcopy, h⟩ := bind_eq_ok h
  obtain ⟨bus, hc, rfl⟩ := onBus_eq_ok hcopy
  obtain rfl : bus = quiet.bus := peekRange_bus hc
  cases h
  refine ⟨rfl, rfl, rfl, ?_⟩
  obtain ⟨hsame, -⟩ := EStateM.Result.ok.inj (hc.symm.trans hnext)
  exact hsame

theorem Machine.Gives.portrays (h : m.Gives snapshot next) (hm : m.bus.GapFree) :
    snapshot.Portrays next := by
  rcases h with h | h
  · obtain ⟨operation, fault, last, hs⟩ := step_ends h
    have hl : last.bus.layout = m.bus.layout := by
      rw [← (layout_overlooks.snapshot _ _).ok hs]
      exact step_retains.ok h
    exact snapshot_portrays (hm.of_layout hl) hs
  · exact snapshot_portrays hm h

namespace Trace

variable {a b : String} {layout : Layout}

/-- The text fills a column with this header at most. -/
structure Fits (header text : String) : Prop where
  short : text.length ≤ header.length
  solid : ' ' ∉ text.toList

/-- Tables are laid out so that a value that fits its column can be read off. -/
structure Layout.Legible (layout : Layout) : Prop where
  table : ∀ (before after : List (String × String)) (header a b : String),
    Fits header a → Fits header b →
      layout.table (before ++ (header, a) :: after) =
        layout.table (before ++ (header, b) :: after) → a = b

section Page

theorem intercalate_focus {separator : String} (before after : List String)
    (h : separator.intercalate (before ++ a :: after) =
      separator.intercalate (before ++ b :: after)) : a = b := by
  induction before with
  | nil =>
    cases after with
    | nil => simpa using h
    | cons c rest =>
      rw [List.nil_append, List.nil_append, String.intercalate_cons_cons,
        String.intercalate_cons_cons, String.append_left_inj, String.append_left_inj] at h
      exact h
  | cons c rest ih =>
    rw [List.cons_append, List.cons_append, String.intercalate_cons_of_ne_nil (by simp),
      String.intercalate_cons_of_ne_nil (by simp)] at h
    exact ih ((String.append_right_inj _).mp h)

theorem padRight_injective {width : Nat} (ha : ' ' ∉ a.toList) (hb : ' ' ∉ b.toList)
    (h : padRight width a = padRight width b) : a = b := by
  have hfront : ∀ text : String, ' ' ∉ text.toList →
      (padRight width text).toList.takeWhile (· ≠ ' ') = text.toList := by
    intro text ht
    rw [padRight, String.toList_append, String.toList_ofList,
      List.takeWhile_append_of_pos fun c hc => decide_eq_true (ne_of_mem_of_not_mem hc ht)]
    cases width - text.length <;> simp [List.replicate_succ]
  apply String.toList_inj.mp
  rw [← hfront a ha, h, hfront b hb]

theorem columnRow_focus {header : String} (before after : List (String × String))
    (side : String × String → String) (ha : Fits header a) (hb : Fits header b)
    (h : columnRow (before ++ (header, a) :: after) side =
      columnRow (before ++ (header, b) :: after) side) :
    padRight header.length (side (header, a)) = padRight header.length (side (header, b)) := by
  simp only [columnRow, columnWidth, List.map_append, List.map_cons, Nat.max_eq_left ha.short,
    Nat.max_eq_left hb.short] at h
  exact intercalate_focus _ _ h

theorem columnRow_headers {header : String} (before after : List (String × String))
    (ha : Fits header a) (hb : Fits header b) :
    columnRow (before ++ (header, a) :: after) Prod.fst =
      columnRow (before ++ (header, b) :: after) Prod.fst := by
  simp only [columnRow, columnWidth, List.map_append, List.map_cons, Nat.max_eq_left ha.short,
    Nat.max_eq_left hb.short]

theorem page_legible : page.Legible := by
  constructor
  intro before after header a b ha hb h
  dsimp only [page] at h
  rw [columnRow_headers before after ha hb, String.append_left_inj, String.append_right_inj] at h
  exact padRight_injective ha.solid hb.solid (columnRow_focus before after Prod.snd ha hb h)

end Page

theorem Layout.Legible.render_injective (hl : layout.Legible) (ha : Fits "INST" a)
    (hb : Fits "INST" b) (h : render layout snapshot a = render layout snapshot b) : a = b := by
  rw [render, render, String.append_left_inj, String.append_left_inj] at h
  exact hl.table _ _ "INST" a b ha hb
    (by simpa only [registers, List.append_assoc, List.cons_append, List.nil_append] using h)

theorem mnemonicIn_fits (memory : List UInt8) (pc : Int) :
    Fits "INST" (mnemonicIn memory pc) := by
  unfold mnemonicIn
  split
  · exact ⟨by decide, by simp⟩
  · dsimp only
    split
    · exact ⟨by decide, by simp⟩
    · exact ⟨Instruction.mnemonic_short _, Instruction.blank_not_mem_mnemonic _⟩

theorem mnemonicIn_congr {memory memory' : List UInt8} {pc : Int}
    (hl : memory'.length = memory.length) (hb : memory'[pc.toNat]? = memory[pc.toNat]?) :
    mnemonicIn memory' pc = mnemonicIn memory pc := by
  unfold mnemonicIn
  rw [hb]
  cases memory[pc.toNat]? with
  | none => rfl
  | some opcode =>
    dsimp only
    rw [List.length_take, List.length_take, List.length_drop, List.length_drop, hl]
    split
    · rfl
    · exact Instruction.mnemonic_ofBytes (by simp [hl])

/-- The dump of a snapshot on the machine writes this text to the terminal and does nothing else
but empty the log. -/
def Shows (layout : Layout) (pause : Bool) (snapshot : Snapshot) (m : Machine) (text : String) :
    Prop :=
  print layout pause snapshot m = .ok () (m.withTerminal [] (m.console.trace text))

/-- What the dump of a snapshot shows on a machine. -/
def text (layout : Layout) (snapshot : Snapshot) (m : Machine) : String :=
  render layout snapshot (mnemonicIn m.bus.cells snapshot.cpu.pc)

theorem shows_text (hm : m.bus.GapFree) (hpc : 0 ≤ snapshot.cpu.pc)
    (hi : m.console.interactive = false) (layout : Layout) (pause : Bool) :
    Shows layout pause snapshot m (text layout snapshot m) := by
  have hstill : ¬(pause && m.console.interactive) = true := by
    rw [hi, Bool.and_false]
    decide
  rw [Shows, print_shows hm hpc layout pause, Console.dumped, if_neg hstill]
  rfl

theorem text_congr (h : mnemonicIn first.bus.cells snapshot.cpu.pc =
    mnemonicIn second.bus.cells snapshot.cpu.pc) :
    text layout snapshot first = text layout snapshot second := by
  rw [text, text, h]

theorem text_inj (hl : layout.Legible) :
    text layout snapshot first = text layout snapshot second ↔
      mnemonicIn first.bus.cells snapshot.cpu.pc =
        mnemonicIn second.bus.cells snapshot.cpu.pc :=
  ⟨hl.render_injective (mnemonicIn_fits _ _) (mnemonicIn_fits _ _), text_congr⟩

/-- Whatever has happened to a machine since a snapshot of it was taken, the dump of the snapshot
shows the processor, the memory and the status of that moment.  Its text is the same on two later
machines if their memories show the same mnemonic at the program counter of the snapshot, as they do
if they have the same byte there, and only then if the layout is legible.  The machine of that
moment is itself a later one. -/
theorem dumps_differ_in_the_mnemonic_only (hm : m.bus.GapFree) (hs : m.Gives snapshot next)
    (hpc : 0 ≤ snapshot.cpu.pc) (hf : next.Later first) (hl : next.Later second)
    (hi : first.console.interactive = false) (hi' : second.console.interactive = false)
    (layout : Layout) (pause : Bool) :
    snapshot.Portrays next ∧
    Shows layout pause snapshot first (text layout snapshot first) ∧
    Shows layout pause snapshot second (text layout snapshot second) ∧
    (mnemonicIn first.bus.cells snapshot.cpu.pc = mnemonicIn second.bus.cells snapshot.cpu.pc →
      text layout snapshot first = text layout snapshot second) ∧
    (layout.Legible → text layout snapshot first = text layout snapshot second →
      mnemonicIn first.bus.cells snapshot.cpu.pc = mnemonicIn second.bus.cells snapshot.cpu.pc) ∧
    (first.bus.cells[snapshot.cpu.pc.toNat]? = second.bus.cells[snapshot.cpu.pc.toNat]? →
      text layout snapshot first = text layout snapshot second) := by
  have hnext := hm.of_layout hs.layout
  have hsize : first.bus.cells.length = second.bus.cells.length := by
    rw [Bus.cells_length, Bus.cells_length]
    exact Bus.memorySize_of_layout (hf.layout.trans hl.layout.symm)
  refine ⟨hs.portrays hm, ?_, ?_, text_congr, fun hlegible => (text_inj hlegible).mp, ?_⟩
  · exact shows_text (hnext.of_layout hf.layout) hpc hi layout pause
  · exact shows_text (hnext.of_layout hl.layout) hpc hi' layout pause
  · intro hbyte
    exact text_congr (mnemonicIn_congr hsize hbyte)

/-- The snapshot is taken before a number is read, and its dump is the same before and after that.
-/
theorem dumps_differ_in_the_mnemonic_only_reading :
    ∃ snapshot next read, overlapping.bus.GapFree ∧ overlapping.Gives snapshot next ∧
      0 ≤ snapshot.cpu.pc ∧ next.Later read ∧ next.console.interactive = false ∧
      read.console.interactive = false ∧ read.cpu.pc = 3 ∧
      Shows page true snapshot next (text page snapshot next) ∧
      Shows page true snapshot read (text page snapshot next) := by
  have hm := overlapping_regular.memory
  have hlook : ∃ snapshot next, Machine.capture overlapping = .ok snapshot next ∧
      snapshot.cpu.pc = 0 ∧
      (finalState (Machine.step next)).bus.cells[0]? = next.bus.cells[0]? ∧
      next.console.interactive = false ∧
      (finalState (Machine.step next)).console.interactive = false ∧
      (finalState (Machine.step next)).cpu.pc = 3 := Succeeds.exists_ok (by decide +kernel)
  obtain ⟨snapshot, next, hlook, hpc, hbyte, hi, hi', hread⟩ := hlook
  have hs : overlapping.Gives snapshot next := .inr hlook
  have hstart : 0 ≤ snapshot.cpu.pc := Int.le_of_eq hpc.symm
  have hl : next.Later (finalState (Machine.step next)) := .single (.step next)
  obtain ⟨-, hfirst, hsecond, -, -, hsame⟩ :=
    dumps_differ_in_the_mnemonic_only hm hs hstart hl .refl hi' hi page true
  rw [hpc] at hsame
  rw [hsame hbyte] at hfirst
  exact ⟨snapshot, next, _, hm, hs, hstart, hl, hi, hi', hread, hsecond, hfirst⟩

/-- Once the byte at its program counter has been overwritten, a snapshot is dumped with another
mnemonic than at the moment when it was taken. -/
theorem dump_follows_the_memory :
    ∃ snapshot next written, overlapping.bus.GapFree ∧ overlapping.Gives snapshot next ∧
      0 ≤ snapshot.cpu.pc ∧ next.Later written ∧ written.console.interactive = false ∧
      Shows page false snapshot next (text page snapshot next) ∧
      Shows page false snapshot written (text page snapshot written) ∧
      text page snapshot next ≠ text page snapshot written := by
  have hm := overlapping_regular.memory
  have hlook : ∃ snapshot next, Machine.capture overlapping = .ok snapshot next ∧
      snapshot.cpu.pc = 0 ∧ mnemonicIn next.bus.cells 0 = "IN" ∧
      mnemonicIn (finalState (onBus (Bus.write 0 0) next)).bus.cells 0 = "SUS" ∧
      next.console.interactive = false ∧
      (finalState (onBus (Bus.write 0 0) next)).console.interactive = false :=
    Succeeds.exists_ok (by decide +kernel)
  obtain ⟨snapshot, next, hlook, hpc, hold, hnew, hi, hi'⟩ := hlook
  have hs : overlapping.Gives snapshot next := .inr hlook
  have hstart : 0 ≤ snapshot.cpu.pc := Int.le_of_eq hpc.symm
  have hnext := hm.of_layout hs.layout
  have hl : next.Later (finalState (onBus (Bus.write 0 0) next)) := .single (.write next 0 0)
  refine ⟨snapshot, next, _, hm, hs, hstart, hl, hi', shows_text hnext hstart hi page false,
    shows_text (hnext.of_layout hl.layout) hstart hi' page false, ?_⟩
  rw [Ne, text_inj page_legible, hpc, hold, hnew]
  decide

end Trace

end ByteMachine
