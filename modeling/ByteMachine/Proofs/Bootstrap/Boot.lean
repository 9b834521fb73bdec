import ByteMachine.Proofs.Bootstrap.Restart

/-!
The program around the loop.  In front of it the program notes where the kernel starts; behind it
the program fills the restart cell, reads two operands and jumps into the kernel.
-/

namespace ByteMachine.Bootstrap

open Flat Console Function

variable {size k l : Nat} {cells : Nat → Option UInt8} {input left : List UInt8}

def prepared (size : Nat) (cells : Nat → Option UInt8) (k l : Nat) : Nat → Option UInt8 :=
  update (update (update (update (update (update cells 1 (some (.ofNat k))) 2 (some (.ofNat l)))
    3 (some (.ofNat (scratchCell size)))) (scratchCell size) (some (.ofNat k)))
    7 (some (.ofNat k))) 4 (some (.ofNat 17))

theorem prepare_executes {more : List Int} (flags : Nat) (hs : Roomy size) (hfull : Full size cells)
    (hnumbers : Numbers input (k :: l :: more) left) :
    ∃ rest, Executes (code size) ⟨0, flags, cells, input⟩ 6
      ⟨17, flags, prepared size cells k l, rest⟩ ∧ Numbers rest more left := by
  have hplaces := hs.places
  have hscratch := scratchCell_le hs.2
  have hne : 1 ≠ scratchCell size := by omega
  cases hnumbers with
  | @number _ afterStart _ _ _ hstart hnumbers =>
    cases hnumbers with
    | @number _ rest _ _ _ hlength hrest =>
      let started := update cells 1 (some (.ofNat k))
      have hstarted : Full size started := hfull.update 1 _
      have h1 : Executes (code size) ⟨0, flags, cells, input⟩ 1
          ⟨3, flags, started, afterStart⟩ := by
        have hin : Executes (code size) _ 1 _ :=
          executes_one (v := ⟨0, flags, cells, input⟩) 7 [1, referenceByte 1] rfl rfl (by decide)
            (reaches_input hstart (by decide) (hfull.free_register hs (by decide)))
        rw [ofInt_natCast] at hin
        exact hin
      let measured := update started 2 (some (.ofNat l))
      have hmeasured : Full size measured := hstarted.update 2 _
      have h2 : Executes (code size) ⟨3, flags, started, afterStart⟩ 1
          ⟨6, flags, measured, rest⟩ := by
        have hin : Executes (code size) _ 1 _ :=
          executes_one (v := ⟨3, flags, started, afterStart⟩) 7 [1, referenceByte 2] rfl rfl
            (by decide)
            (reaches_input hlength (by decide) (hstarted.free_register hs (by decide)))
        rw [ofInt_natCast] at hin
        exact hin
      let aimed := update measured 3 (some (.ofNat (scratchCell size)))
      have haimed : Full size aimed := hmeasured.update 3 _
      have haimed1 : aimed 1 = some (.ofNat k) := rfl
      have haimed3 : aimed 3 = some (.ofNat (scratchCell size)) := rfl
      have h3 : Executes (code size) ⟨6, flags, measured, rest⟩ 1 ⟨9, flags, aimed, rest⟩ :=
        executes_one 1 [literalByte (scratchCell size), referenceByte 3] rfl rfl (by decide)
          (reaches_move (.literal hscratch) (by decide) (hmeasured.free_register hs (by decide)))
      let noted := update aimed (scratchCell size) (some (.ofNat k))
      have hnoted : Full size noted := haimed.update _ _
      have hnoted1 : noted 1 = some (.ofNat k) := (update_of_ne hne ..).trans haimed1
      have h4 : Executes (code size) ⟨9, flags, aimed, rest⟩ 1 ⟨12, flags, noted, rest⟩ :=
        executes_one 10 [referenceByte 1, referenceByte 3] rfl rfl (by decide)
          (reaches_storeAt (.reference (by decide) haimed1) (by decide) haimed3 hscratch
            (haimed.free_memory (by omega) (by omega)))
      let pointed := update noted 7 (some (.ofNat k))
      have hpointed : Full size pointed := hnoted.update 7 _
      have h5 : Executes (code size) ⟨12, flags, noted, rest⟩ 1 ⟨15, flags, pointed, rest⟩ :=
        executes_one 1 [referenceByte 1, referenceByte 7] rfl rfl (by decide)
          (reaches_move (.reference (by decide) hnoted1) (by decide)
            (hnoted.free_register hs (by decide)))
      have h6 : Executes (code size) ⟨15, flags, pointed, rest⟩ 1
          ⟨17, flags, prepared size cells k l, rest⟩ :=
        executes_one 6 [referenceByte 4] rfl rfl (by decide)
          (reaches_storePc (by decide) (hpointed.free_register hs (by decide)))
      have hall := ((((h1.trans h2).trans h3).trans h4).trans h5).trans h6
      exact ⟨rest, hall, hrest⟩

def finished (size : Nat) (cells : Nat → Option UInt8) (a b : Int) : Nat → Option UInt8 :=
  update (update (update (update (update cells (restartCell size) (some (.ofNat 34)))
    7 (some (.ofNat (restartCell size + 1)))) 2 (some (.ofInt a))) 6 (some (.ofInt b)))
    3 (some (.ofNat exitAddress))

theorem finish_executes {a b : Int} (flags : Nat) (hs : Roomy size) (hfull : Full size cells)
    (hnumbers : Numbers input [a, b] left) (hk : k < 256)
    (hstart : cells (scratchCell size) = some (.ofNat k)) :
    Executes (code size) ⟨32, flags, cells, input⟩ 6
      ⟨k, flags, finished size cells a b, left⟩ := by
  have hplaces := hs.places
  let marked := update cells (restartCell size) (some (.ofNat 34))
  have hmarked : Full size marked := hfull.update _ _
  have hmark : Executes (code size) ⟨32, flags, cells, input⟩ 1 ⟨34, flags, marked, input⟩ :=
    executes_one 6 [referenceByte (restartCell size)] rfl rfl (by decide)
      (reaches_storePc (by unfold largestOperand; omega)
        (hfull.free_memory (by omega) (by omega)))
  have hthere : marked (scratchCell size) = some (.ofNat k) :=
    (update_of_ne (by omega) ..).trans hstart
  have hrestart : Executes (code size) ⟨34, flags, marked, input⟩ 5
      ⟨k, flags, finished size cells a b, left⟩ :=
    restart_executes flags hs hmarked (drop_code size) hnumbers hk hthere
  have hall := hmark.trans hrestart
  exact hall

structure Ready (size k : Nat) (kernel : List Int) (a b : Int)
    (cells cells' : Nat → Option UInt8) : Prop where
  loaded : ∀ i < kernel.length, cells' (k + i) = kernel[i]?.map UInt8.ofInt
  start : cells' (scratchCell size) = some (.ofNat k)
  restart : cells' (restartCell size) = some (.ofNat 34)
  first : cells' 2 = some (.ofInt a)
  second : cells' 6 = some (.ofInt b)
  exit : cells' 3 = some (.ofNat exitAddress)
  behind : cells' 7 = some (.ofNat (restartCell size + 1))
  others : ∀ i ≥ 8, i ≠ scratchCell size → i ≠ restartCell size →
    ¬(k ≤ i ∧ i < k + kernel.length) → cells' i = cells i

theorem prepared_other {i : Nat} (hi : 8 ≤ i) (hs : i ≠ scratchCell size) :
    prepared size cells k l i = cells i := by
  simp (disch := omega) only [prepared, update_of_ne]

theorem finished_other {a b : Int} {i : Nat} (hi : 8 ≤ i) (hr : i ≠ restartCell size) :
    finished size cells a b i = cells i := by
  simp (disch := omega) only [finished, update_of_ne]

theorem Full.prepared (h : Full size cells) (k l : Nat) : Full size (prepared size cells k l) :=
  (((((h.update 1 _).update 2 _).update 3 _).update _ _).update 7 _).update 4 _

theorem boot_executes {kernel : List Int} {a b : Int} (hs : Roomy size) (hfull : Full size cells)
    (hk : 51 ≤ k) (hne : kernel ≠ []) (hfit : k + kernel.length ≤ restartCell size)
    (hnumbers : Numbers input (k :: kernel.length :: (kernel ++ [a, b])) left) :
    ∃ flags cells', Executes (code size) ⟨0, 0, cells, input⟩ (12 + 5 * kernel.length)
      ⟨k, flags, cells', left⟩ ∧ Ready size k kernel a b cells cells' := by
  obtain ⟨hscratch, hrestart, hlow, hhigh⟩ := hs.places
  obtain ⟨rest, hprepare, hrest⟩ := prepare_executes 0 hs hfull hnumbers
  have hprepared := hfull.prepared k kernel.length
  have h2 : prepared size cells k kernel.length 2 = some (.ofNat kernel.length) := by
    simp (disch := omega) only [prepared, update_of_ne, update_self]
  have h7 : prepared size cells k kernel.length 7 = some (.ofNat k) := by
    simp (disch := omega) only [prepared, update_of_ne, update_self]
  have hstart : prepared size cells k kernel.length (scratchCell size) = some (.ofNat k) := by
    simp (disch := omega) only [prepared, update_of_ne, update_self]
  obtain ⟨flags, loaded, last, hloop, hlast, hloadedFull, hloaded⟩ :=
    loop_executes 0 hs hprepared hrest hne h2 (update_self ..) h7 hk hfit
  have hthere : loaded (scratchCell size) = some (.ofNat k) :=
    (hloaded.others _ (by omega) (by omega) (by omega) (by omega)).trans hstart
  have hfinish := finish_executes flags hs hloadedFull hlast (by omega) hthere
  have hall := (hprepare.trans hloop).trans hfinish
  rw [show 6 + 5 * kernel.length + 6 = 12 + 5 * kernel.length by omega] at hall
  refine ⟨flags, _, hall, ?_⟩
  constructor
  · intro i hi
    rw [finished_other (by omega) (by omega)]
    exact hloaded.kernel i hi
  · rw [finished_other (by omega) (by omega)]
    exact hthere
  · simp (disch := omega) only [finished, update_of_ne, update_self]
  · simp (disch := omega) only [finished, update_of_ne, update_self]
  · simp (disch := omega) only [finished, update_of_ne, update_self]
  · simp (disch := omega) only [finished, update_self]
  · simp (disch := omega) only [finished, update_of_ne, update_self]
  · intro i hi hns hnr hout
    rw [finished_other hi hnr, hloaded.others i (by omega) (by omega) (by omega) hout,
      prepared_other hi hns]

end ByteMachine.Bootstrap
