import ByteMachine.Proofs.Bootstrap.Code
import ByteMachine.Proofs.Flat.Execution

/-!
The loop that reads a kernel.  A pass reads one number, stores it where register 7 points, and
counts register 7 up and register 2 down; the loop is left when register 2 has come to zero.
-/

namespace ByteMachine.Bootstrap

open Flat Console Function

variable {size place count : Nat} {cells : Nat → Option UInt8} {input rest : List UInt8}

def Full (size : Nat) (cells : Nat → Option UInt8) : Prop := ∀ i < size, (cells i).isSome

theorem Full.free_register {bytes : List UInt8} {index : Nat} (h : Full size cells)
    (hs : Roomy size) (hi : index < registerCount) : Free bytes cells index :=
  ⟨h index (by unfold Roomy registerCount at *; omega), .inl hi⟩

theorem Full.free_memory {index : Nat} (h : Full size cells) (hi : 51 ≤ index)
    (hl : index < size) : Free (code size) cells index :=
  ⟨h index hl, .inr hi⟩

theorem Full.update (h : Full size cells) (index : Nat) (byte : UInt8) :
    Full size (update cells index (some byte)) := by
  intro i hi
  by_cases hne : i = index
  · subst hne
    simp
  · rw [update_of_ne hne]
    exact h i hi

def passed (cells : Nat → Option UInt8) (place count : Nat) (byte : UInt8) : Nat → Option UInt8 :=
  update (update (update (update cells 5 (some byte)) place (some byte)) 7
    (some (.ofNat (place + 1)))) 2 (some (.ofNat count))

theorem Full.passed (h : Full size cells) (place count : Nat) (byte : UInt8) :
    Full size (passed cells place count byte) :=
  (((h.update 5 byte).update place byte).update 7 _).update 2 _

theorem passed_place (hp : 8 ≤ place) (byte : UInt8) :
    passed cells place count byte place = some byte := by
  simp (disch := omega) only [passed, update_of_ne, update_self]

theorem passed_pointer (place count : Nat) (byte : UInt8) :
    passed cells place count byte 7 = some (.ofNat (place + 1)) := by
  simp (disch := omega) only [passed, update_of_ne, update_self]

theorem passed_other {i : Nat} (h2 : i ≠ 2) (h5 : i ≠ 5) (h7 : i ≠ 7) (hp : i ≠ place)
    (byte : UInt8) : passed cells place count byte i = cells i := by
  simp (disch := omega) only [passed, update_of_ne]

theorem countdown_flags (hcount : count < 255) :
    flagsOf (fun new old => old < new) (.ofNat count) (.ofNat (count + 1)) =
      if count = 0 then 1 else 0 := by
  have hnew : (UInt8.ofNat count).toNat = count :=
    UInt8.toNat_ofNat_of_lt' (show count < 256 by omega)
  have hold : (UInt8.ofNat (count + 1)).toNat = count + 1 :=
    UInt8.toNat_ofNat_of_lt' (show count + 1 < 256 by omega)
  have hzero : UInt8.ofNat count = 0 ↔ count = 0 := by rw [← toNat_eq_zero_iff, hnew]
  have hpast : ¬UInt8.ofNat (count + 1) < UInt8.ofNat count := by
    rw [UInt8.lt_iff_toNat_lt, hnew, hold]
    omega
  simp only [flagsOf, hzero, hpast, decide_false, Bool.false_eq_true, if_false, Nat.add_zero]

theorem pointer_executes (flags : Nat) (hs : Roomy size) (hfull : Full size cells)
    (hpointer : cells 7 = some (.ofNat place)) :
    ∃ carry, Executes (code size) ⟨23, flags, cells, input⟩ 1
      ⟨26, carry, update cells 7 (some (.ofNat (place + 1))), input⟩ := by
  have hup : UInt8.ofNat place + .ofNat 1 = .ofNat (place + 1) := (UInt8.ofNat_add place 1).symm
  have hadd : Executes (code size) _ 1 _ :=
    executes_one (v := ⟨23, flags, cells, input⟩) 2 [literalByte 1, referenceByte 7] rfl rfl
      (by decide) (reaches_add (.literal (by decide)) (by decide) hpointer
        (hfull.free_register hs (by decide)))
  rw [hup] at hadd
  exact ⟨_, hadd⟩

theorem counter_executes (flags : Nat) (hs : Roomy size) (hfull : Full size cells)
    (hcounter : cells 2 = some (.ofNat (count + 1))) (hcount : count < 255) :
    Executes (code size) ⟨26, flags, cells, input⟩ 1
      ⟨29, if count = 0 then 1 else 0, update cells 2 (some (.ofNat count)), input⟩ := by
  have hdown : UInt8.ofNat (count + 1) - .ofNat 1 = .ofNat count := by
    rw [UInt8.ofNat_add, UInt8.add_sub_cancel]
  have hsub : Executes (code size) _ 1 _ :=
    executes_one (v := ⟨26, flags, cells, input⟩) 3 [literalByte 1, referenceByte 2] rfl rfl
      (by decide) (reaches_sub (.literal (by decide)) (by decide) hcounter
        (hfull.free_register hs (by decide)))
  rw [hdown, countdown_flags hcount] at hsub
  exact hsub

theorem back_executes (count : Nat) (hhead : cells 4 = some (.ofNat 17)) :
    Executes (code size) ⟨29, if count = 0 then 1 else 0, cells, input⟩ 1
      ⟨if count = 0 then 32 else 17, if count = 0 then 1 else 0, cells, input⟩ := by
  have hset : ¬1 &&& UInt8.toNat 1 = 0 := by decide
  have hclear : 0 &&& UInt8.toNat 1 = 0 := by decide
  by_cases hend : count = 0
  · rw [if_pos hend, if_pos hend]
    exact executes_one 4 [1, referenceByte 4] rfl rfl (by decide)
      (reaches_jumpUnless_passed 1 (by decide) hset)
  · rw [if_neg hend, if_neg hend]
    exact executes_one 4 [1, referenceByte 4] rfl rfl (by decide)
      (reaches_jumpUnless_taken 1 (by decide) hhead (by decide) hclear)

/-- One pass of the loop.  It goes back to the head of the loop unless the counter is at zero. -/
theorem pass_executes {n : Int} (flags : Nat) (hs : Roomy size) (hfull : Full size cells)
    (hnumber : scanNumber input = (some n, rest)) (hcounter : cells 2 = some (.ofNat (count + 1)))
    (hhead : cells 4 = some (.ofNat 17)) (hpointer : cells 7 = some (.ofNat place))
    (hlow : 51 ≤ place) (hhigh : place < restartCell size) (hcount : count < 128) :
    ∃ flags', Executes (code size) ⟨17, flags, cells, input⟩ 5
      ⟨if count = 0 then 32 else 17, flags', passed cells place count (.ofInt n), rest⟩ := by
  have hplaces := hs.places
  have hplace : place ≤ largestOperand := by
    unfold largestOperand
    omega
  have hne : (2 : Nat) ≠ place ∧ (4 : Nat) ≠ place ∧ (7 : Nat) ≠ place := by omega
  let read := update cells 5 (some (.ofInt n))
  have hread : Full size read := hfull.update 5 _
  have hread5 : read 5 = some (.ofInt n) := update_self ..
  have hread7 : read 7 = some (.ofNat place) := (update_of_ne (by decide) ..).trans hpointer
  have h1 : Executes (code size) ⟨17, flags, cells, input⟩ 1 ⟨20, flags, read, rest⟩ :=
    executes_one 7 [1, referenceByte 5] rfl rfl (by decide)
      (reaches_input hnumber (by decide) (hfull.free_register hs (by decide)))
  let stored := update read place (some (.ofInt n))
  have hstored : Full size stored := hread.update place _
  have hstored7 : stored 7 = some (.ofNat place) := (update_of_ne hne.2.2 ..).trans hread7
  have h2 : Executes (code size) ⟨20, flags, read, rest⟩ 1 ⟨23, flags, stored, rest⟩ :=
    executes_one 10 [referenceByte 5, referenceByte 7] rfl rfl (by decide)
      (reaches_storeAt (.reference (by decide) hread5) (by decide) hread7 hplace
        (hread.free_memory hlow (by omega)))
  let advanced := update stored 7 (some (.ofNat (place + 1)))
  have hadvanced : Full size advanced := hstored.update 7 _
  obtain ⟨carry, h3⟩ : ∃ carry, Executes (code size) ⟨23, flags, stored, rest⟩ 1
      ⟨26, carry, advanced, rest⟩ := pointer_executes flags hs hstored hstored7
  have hadvanced2 : advanced 2 = some (.ofNat (count + 1)) :=
    (update_of_ne (by decide) ..).trans ((update_of_ne hne.1 ..).trans
      ((update_of_ne (by decide) ..).trans hcounter))
  have h4 : Executes (code size) ⟨26, carry, advanced, rest⟩ 1
      ⟨29, if count = 0 then 1 else 0, passed cells place count (.ofInt n), rest⟩ :=
    counter_executes carry hs hadvanced hadvanced2 (by omega)
  have hpassed4 : passed cells place count (.ofInt n) 4 = some (.ofNat 17) :=
    (passed_other (by decide) (by decide) (by decide) hne.2.1 _).trans hhead
  have hall := (((h1.trans h2).trans h3).trans h4).trans (back_executes count hpassed4)
  exact ⟨_, hall⟩

/-- The numbers have been stored from a place on, and nothing else but three registers has
changed. -/
structure Loaded (cells : Nat → Option UInt8) (place : Nat) (numbers : List Int)
    (cells' : Nat → Option UInt8) : Prop where
  kernel : ∀ i < numbers.length, cells' (place + i) = numbers[i]?.map UInt8.ofInt
  others : ∀ i, i ≠ 2 → i ≠ 5 → i ≠ 7 → ¬(place ≤ i ∧ i < place + numbers.length) →
    cells' i = cells i

theorem Loaded.nothing (cells : Nat → Option UInt8) (place : Nat) :
    Loaded cells place [] cells where
  kernel := by
    intro i hi
    cases hi
  others := by
    intros
    rfl

theorem Loaded.passed {n : Int} {numbers : List Int} {cells' : Nat → Option UInt8} (hp : 8 ≤ place)
    (h : Loaded (passed cells place count (.ofInt n)) (place + 1) numbers cells') :
    Loaded cells place (n :: numbers) cells' where
  kernel := by
    intro i hi
    rw [List.length_cons] at hi
    cases i with
    | zero =>
      rw [Nat.add_zero, h.others place (by omega) (by omega) (by omega) (by omega), passed_place hp]
      rfl
    | succ i =>
      rw [Nat.add_comm i, ← Nat.add_assoc, h.kernel i (by omega), Nat.add_comm 1,
        List.getElem?_cons_succ]
  others := by
    intro i h2 h5 h7 hi
    rw [List.length_cons] at hi
    rw [h.others i h2 h5 h7 (by omega), passed_other h2 h5 h7 (by omega)]

theorem loop_executes {numbers more : List Int} {left : List UInt8} (flags : Nat) (hs : Roomy size)
    (hfull : Full size cells) (hnumbers : Numbers input (numbers ++ more) left) (hne : numbers ≠ [])
    (hcounter : cells 2 = some (.ofNat numbers.length)) (hhead : cells 4 = some (.ofNat 17))
    (hpointer : cells 7 = some (.ofNat place)) (hlow : 51 ≤ place)
    (hhigh : place + numbers.length ≤ restartCell size) :
    ∃ flags' cells' rest, Executes (code size) ⟨17, flags, cells, input⟩ (5 * numbers.length)
        ⟨32, flags', cells', rest⟩ ∧
      Numbers rest more left ∧ Full size cells' ∧ Loaded cells place numbers cells' := by
  -- One pass for each number; the pass for the last of them falls through to the end of the loop.
  induction numbers generalizing flags cells input place with
  | nil => exact absurd rfl hne
  | cons n numbers ih =>
    rw [List.length_cons] at hcounter hhigh
    have hcount : numbers.length < 128 := by
      have hplaces := hs.places
      omega
    cases hnumbers with
    | @number _ rest _ _ _ hnumber hrest =>
      obtain ⟨flags', hpass⟩ := pass_executes flags hs hfull hnumber hcounter hhead hpointer hlow
        (by omega) hcount
      have hfull' := hfull.passed place numbers.length (.ofInt n)
      by_cases hend : numbers = []
      · subst hend
        have hloaded : Loaded (Bootstrap.passed cells place 0 (.ofInt n)) (place + 1) [] _ :=
          .nothing ..
        exact ⟨flags', _, rest, hpass, hrest, hfull', hloaded.passed (by omega)⟩
      · have hmore : ¬numbers.length = 0 := fun h => hend (List.length_eq_zero_iff.mp h)
        rw [if_neg hmore] at hpass
        obtain ⟨flags'', cells'', rest', hloop, hrest', hfull'', hloaded⟩ :=
          ih flags' hfull' hrest hend (update_self ..)
          ((passed_other (by decide) (by decide) (by decide) (by omega) _).trans hhead)
          (passed_pointer ..) (by omega) (by omega)
        refine ⟨flags'', cells'', rest', ?_, hrest', hfull'', hloaded.passed (by omega)⟩
        have hall := hpass.trans hloop
        rw [Nat.add_comm, ← Nat.mul_succ] at hall
        exact hall

end ByteMachine.Bootstrap
