import ByteMachine.Proofs.Bootstrap.Loop

/-!
The end of the bootstrap program.  It reads two operands and jumps to where the kernel starts;
behind that jump lies the way back from a kernel, which leads to the same place after a suspension.
Nothing in front of it has to be left of the program.
-/

namespace ByteMachine.Bootstrap

open Flat Console Function

variable {size k : Nat} {cells : Nat → Option UInt8} {bytes input left : List UInt8}

def warmStart : Nat := 34

/-- The bytes from there on. -/
def restartCode (size : Nat) : List UInt8 :=
  [ 1, literalByte (restartCell size + 1), referenceByte 7,
    7, 1, referenceByte 2,
    7, 1, referenceByte 6,
    1, literalByte exitAddress, referenceByte 3,
    5, referenceByte (scratchCell size),
    0,
    5, referenceByte (restartCell size) ]

theorem drop_code (size : Nat) : (code size).drop warmStart = restartCode size := rfl

theorem restartCode_at (hr : bytes.drop warmStart = restartCode size) (offset count : Nat) :
    (bytes.drop (warmStart + offset)).take count = ((restartCode size).drop offset).take count := by
  rw [← List.drop_drop, hr]

def restarted (size : Nat) (cells : Nat → Option UInt8) (a b : Int) : Nat → Option UInt8 :=
  update (update (update (update cells 7 (some (.ofNat (restartCell size + 1))))
    2 (some (.ofInt a))) 6 (some (.ofInt b))) 3 (some (.ofNat exitAddress))

theorem restarted_other {a b : Int} {i : Nat} (hi : registerCount ≤ i) :
    restarted size cells a b i = cells i := by
  unfold registerCount at hi
  simp (disch := omega) only [restarted, update_of_ne]

theorem restart_executes {a b : Int} (flags : Nat) (hs : Roomy size) (hfull : Full size cells)
    (hr : bytes.drop warmStart = restartCode size) (hnumbers : Numbers input [a, b] left)
    (hk : k < 256) (hstart : cells (scratchCell size) = some (.ofNat k)) :
    Executes bytes ⟨34, flags, cells, input⟩ 5 ⟨k, flags, restarted size cells a b, left⟩ := by
  have hplaces := hs.places
  have hscratch := scratchCell_le hs.2
  have hrestart := restartCell_lt hs.2
  cases hnumbers with
  | @number _ rest _ _ _ hfirst hnumbers =>
    cases hnumbers with
    | @number _ _ _ _ _ hsecond hnumbers =>
      cases hnumbers
      let pointed := update cells 7 (some (.ofNat (restartCell size + 1)))
      have hpointed : Full size pointed := hfull.update 7 _
      have h1 : Executes bytes ⟨34, flags, cells, input⟩ 1 ⟨37, flags, pointed, input⟩ :=
        executes_one 1 [literalByte (restartCell size + 1), referenceByte 7]
          (restartCode_at hr 0 3) rfl (by decide)
          (reaches_move (.literal hrestart) (by decide) (hfull.free_register hs (by decide)))
      let first := update pointed 2 (some (.ofInt a))
      have hfirst' : Full size first := hpointed.update 2 _
      have h2 : Executes bytes ⟨37, flags, pointed, input⟩ 1 ⟨40, flags, first, rest⟩ :=
        executes_one 7 [1, referenceByte 2] (restartCode_at hr 3 3) rfl (by decide)
          (reaches_input hfirst (by decide) (hpointed.free_register hs (by decide)))
      let second := update first 6 (some (.ofInt b))
      have hsecond' : Full size second := hfirst'.update 6 _
      have h3 : Executes bytes ⟨40, flags, first, rest⟩ 1 ⟨43, flags, second, left⟩ :=
        executes_one 7 [1, referenceByte 6] (restartCode_at hr 6 3) rfl (by decide)
          (reaches_input hsecond (by decide) (hfirst'.free_register hs (by decide)))
      have h4 : Executes bytes ⟨43, flags, second, left⟩ 1
          ⟨46, flags, restarted size cells a b, left⟩ :=
        executes_one 1 [literalByte exitAddress, referenceByte 3] (restartCode_at hr 9 3) rfl
          (by decide)
          (reaches_move (.literal (by decide)) (by decide) (hsecond'.free_register hs (by decide)))
      have hthere : restarted size cells a b (scratchCell size) = some (.ofNat k) :=
        (restarted_other (by unfold registerCount; omega)).trans hstart
      have h5 : Executes bytes ⟨46, flags, restarted size cells a b, left⟩ 1
          ⟨k, flags, restarted size cells a b, left⟩ :=
        executes_one 5 [referenceByte (scratchCell size)] (restartCode_at hr 12 2) rfl (by decide)
          (reaches_jumpTo hscratch hthere hk)
      have hall := (((h1.trans h2).trans h3).trans h4).trans h5
      exact hall

theorem resume_executes {a b : Int} (flags : Nat) (hs : Roomy size) (hfull : Full size cells)
    (hr : bytes.drop warmStart = restartCode size) (hnumbers : Numbers input [a, b] left)
    (hk : k < 256) (hstart : cells (scratchCell size) = some (.ofNat k))
    (hmark : cells (restartCell size) = some (.ofNat warmStart)) :
    Executes bytes ⟨49, flags, cells, input⟩ 6 ⟨k, flags, restarted size cells a b, left⟩ := by
  have hlow : restartCell size ≤ largestOperand := by
    have hbehind := restartCell_lt hs.2
    omega
  have hback : Executes bytes ⟨49, flags, cells, input⟩ 1 ⟨warmStart, flags, cells, input⟩ :=
    executes_one 5 [referenceByte (restartCell size)] (restartCode_at hr 15 2) rfl (by decide)
      (reaches_jumpTo hlow hmark (by decide))
  have hall := hback.trans (restart_executes flags hs hfull hr hnumbers hk hstart)
  exact hall

end ByteMachine.Bootstrap
