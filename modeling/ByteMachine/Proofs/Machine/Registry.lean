import ByteMachine.Machine.Run
import ByteMachine.Proofs.Effect
import Mathlib.Data.List.Induction
import Mathlib.Data.List.Nodup

/-!
The registry of observers, as the calls make it that add observers to it and remove them.  It holds
nobody twice, and lists those who are registered by the time since when they have been.
-/

namespace ByteMachine.Session

variable {κ ω : Type}

inductive Change (κ : Type) where
  | add (observer : κ)
  | remove (observer : κ)
  deriving DecidableEq, Repr

/-- The observer has been registered since this call of the history.  Earlier calls that added it
have been undone before it, and no later one has removed it. -/
structure Since (history : List (Change κ)) (time : Nat) (observer : κ) : Prop where
  added : history[time]? = some (.add observer)
  first : ∀ earlier < time, history[earlier]? = some (.add observer) →
    ∃ between, earlier < between ∧ between < time ∧ history[between]? = some (.remove observer)
  kept : ∀ later > time, history[later]? ≠ some (.remove observer)

section Since

variable {history : List (Change κ)} {change call : Change κ} {observer : κ} {time : Nat}

theorem earlier_or_last (h : (history ++ [change])[time]? = some call) :
    (time < history.length ∧ history[time]? = some call) ∨
      (time = history.length ∧ call = change) := by
  rcases Nat.lt_or_ge time history.length with hl | hl
  · rw [List.getElem?_append_left hl] at h
    exact .inl ⟨hl, h⟩
  · rw [List.getElem?_append_right hl, List.getElem?_singleton] at h
    split at h
    · next hz =>
      cases h
      exact .inr ⟨by omega, rfl⟩
    · cases h

theorem Since.lt_length (h : Since history time observer) : time < history.length :=
  (List.getElem?_eq_some_iff.mp h.added).1

theorem not_since_nil : ¬Since [] time observer := fun h => nomatch h.added

/-- Where an observer has been added and nothing has undone that, some such call counts. -/
theorem exists_since (ha : history[time]? = some (.add observer))
    (hk : ∀ later > time, history[later]? ≠ some (.remove observer)) :
    ∃ start, Since history start observer := by
  -- The earliest such call is the one that counts: all before it have been undone.
  induction time using Nat.strongRecOn with
  | ind time ih =>
    by_cases hfirst : ∀ earlier < time, history[earlier]? = some (.add observer) →
        ∃ between, earlier < between ∧ between < time ∧
          history[between]? = some (.remove observer)
    · exact ⟨time, ha, hfirst, hk⟩
    · push Not at hfirst
      obtain ⟨earlier, hlt, hadded, hnot⟩ := hfirst
      refine ih earlier hlt hadded fun later hlater => ?_
      rcases Nat.lt_trichotomy later time with hl | rfl | hl
      · exact hnot later hlater hl
      · rw [ha]
        nofun
      · exact hk later hl

theorem since_append_old (ht : time < history.length) :
    Since (history ++ [change]) time observer ↔
      Since history time observer ∧ change ≠ .remove observer := by
  have hold : ∀ moment < history.length, (history ++ [change])[moment]? = history[moment]? :=
    fun moment hm => List.getElem?_append_left hm
  constructor
  · rintro ⟨ha, hf, hk⟩
    refine ⟨⟨?_, fun earlier hlt he => ?_, fun later hlater hr => ?_⟩, ?_⟩
    · rwa [hold time ht] at ha
    · rw [← hold earlier (Nat.lt_trans hlt ht)] at he
      obtain ⟨between, hl, hb, hr⟩ := hf earlier hlt he
      exact ⟨between, hl, hb, by rwa [hold between (Nat.lt_trans hb ht)] at hr⟩
    · have hlength := (List.getElem?_eq_some_iff.mp hr).1
      exact hk later hlater (by rwa [hold later hlength])
    · have hlast := hk history.length ht
      simpa using hlast
  · rintro ⟨⟨ha, hf, hk⟩, hc⟩
    refine ⟨?_, fun earlier hlt he => ?_, fun later hlater hr => ?_⟩
    · rwa [hold time ht]
    · rw [hold earlier (Nat.lt_trans hlt ht)] at he
      obtain ⟨between, hl, hb, hr⟩ := hf earlier hlt he
      exact ⟨between, hl, hb, by rwa [hold between (Nat.lt_trans hb ht)]⟩
    · rcases earlier_or_last hr with ⟨-, hr⟩ | ⟨-, hlast⟩
      · exact hk later hlater hr
      · exact hc hlast.symm

theorem since_append_new :
    Since (history ++ [change]) history.length observer ↔
      change = .add observer ∧ ∀ time, ¬Since history time observer := by
  constructor
  · rintro ⟨ha, hf, -⟩
    refine ⟨by simpa using ha, fun time hs => ?_⟩
    have hlt := hs.lt_length
    obtain ⟨between, hl, hb, hr⟩ := hf time hlt (by rw [List.getElem?_append_left hlt, hs.added])
    rw [List.getElem?_append_left hb] at hr
    exact hs.kept between hl hr
  · rintro ⟨rfl, hn⟩
    refine ⟨by simp, fun earlier hlt ha => ?_, fun later hl hr => ?_⟩
    · rw [List.getElem?_append_left hlt] at ha
      by_contra hno
      push Not at hno
      obtain ⟨start, hs⟩ := exists_since ha fun later hl hr => by
        have hlater := (List.getElem?_eq_some_iff.mp hr).1
        exact hno later hl hlater (by rwa [List.getElem?_append_left hlater])
      exact hn start hs
    · rcases earlier_or_last hr with ⟨hlater, -⟩ | ⟨-, hlast⟩
      · omega
      · cases hlast

theorem exists_since_append :
    (∃ time, Since (history ++ [change]) time observer) ↔
      change = .add observer ∨
        ((∃ time, Since history time observer) ∧ change ≠ .remove observer) := by
  constructor
  · rintro ⟨time, hs⟩
    rcases earlier_or_last hs.added with ⟨hold, -⟩ | ⟨rfl, -⟩
    · obtain ⟨hsince, hc⟩ := (since_append_old hold).mp hs
      exact .inr ⟨⟨time, hsince⟩, hc⟩
    · exact .inl (since_append_new.mp hs).1
  · intro h
    by_cases hs : ∃ time, Since history time observer
    · obtain ⟨time, hsince⟩ := hs
      have hc : change ≠ .remove observer := by
        rcases h with rfl | h
        · nofun
        · exact h.2
      exact ⟨time, (since_append_old hsince.lt_length).mpr ⟨hsince, hc⟩⟩
    · have hc : change = .add observer := h.resolve_right fun h => hs h.1
      exact ⟨history.length, since_append_new.mpr ⟨hc, not_exists.mp hs⟩⟩

end Since

variable [DecidableEq κ]

namespace Change

def perform : Change κ → SessionM κ ω Unit
  | .add observer => subscribe observer
  | .remove observer => unsubscribe observer

/-- What the change makes of a registry. -/
def apply (registry : List κ) : Change κ → List κ
  | .add observer => if observer ∈ registry then registry else registry ++ [observer]
  | .remove observer => registry.erase observer

variable {observer other : κ} {registry before after : List κ} {changes : List (Change κ)}

theorem apply_add_known (h : observer ∈ registry) : apply registry (.add observer) = registry :=
  if_pos h

theorem apply_add_new (h : observer ∉ registry) :
    apply registry (.add observer) = registry ++ [observer] := if_neg h

theorem apply_remove : apply registry (.remove observer) = registry.erase observer := rfl

theorem perform_ok (change : Change κ) (session : Session κ ω) :
    change.perform session =
      .ok () { session with observers := apply session.observers change } := by
  cases change with
  | add observer =>
    by_cases ho : observer ∈ session.observers
    · rw [apply_add_known ho]
      exact congrArg (EStateM.Result.ok ()) (if_pos ho)
    · rw [apply_add_new ho]
      exact congrArg (EStateM.Result.ok ()) (if_neg ho)
  | remove observer => rfl

theorem performAll_ok (changes : List (Change κ)) (session : Session κ ω) :
    changes.forM perform session =
      .ok () { session with observers := changes.foldl apply session.observers } := by
  induction changes generalizing session with
  | nil => rfl
  | cons change rest ih => exact (bind_ok (perform_ok change session)).trans (ih _)

theorem nodup_apply (hn : registry.Nodup) (change : Change κ) : (apply registry change).Nodup := by
  cases change with
  | add observer =>
    by_cases ho : observer ∈ registry
    · rwa [apply_add_known ho]
    · rw [apply_add_new ho, ← List.concat_eq_append]
      exact hn.concat ho
  | remove observer => exact hn.erase observer

theorem mem_apply (hn : registry.Nodup) {change : Change κ} :
    other ∈ apply registry change ↔
      change = .add other ∨ (other ∈ registry ∧ change ≠ .remove other) := by
  cases change with
  | add observer =>
    by_cases ho : observer ∈ registry
    · rw [apply_add_known ho]
      grind
    · rw [apply_add_new ho]
      grind
  | remove observer =>
    rw [apply_remove, hn.mem_erase_iff]
    grind

theorem nodup_foldl (hn : registry.Nodup) (changes : List (Change κ)) :
    (changes.foldl apply registry).Nodup := by
  induction changes generalizing registry with
  | nil => exact hn
  | cons change rest ih => exact ih (nodup_apply hn change)

theorem notMem_foldl (hn : registry.Nodup) (ho : observer ∉ registry)
    (hc : .add observer ∉ changes) : observer ∉ changes.foldl apply registry := by
  induction changes generalizing registry with
  | nil => exact ho
  | cons change rest ih =>
    rw [List.mem_cons, not_or] at hc
    refine ih (nodup_apply hn change) ?_ hc.2
    rw [mem_apply hn]
    exact fun h => h.elim (fun ha => hc.1 ha.symm) fun hk => ho hk.1

theorem mem_foldl (hn : registry.Nodup) (ho : observer ∈ registry)
    (hc : .remove observer ∉ changes) : observer ∈ changes.foldl apply registry := by
  induction changes generalizing registry with
  | nil => exact ho
  | cons change rest ih =>
    rw [List.mem_cons, not_or] at hc
    refine ih (nodup_apply hn change) ?_ hc.2
    rw [mem_apply hn]
    exact .inr ⟨ho, fun hr => hc.1 hr.symm⟩

structure Shifts (changes : List (Change κ)) (before after ahead behind : List κ) : Prop where
  sublist : ahead.Sublist before
  kept : ∀ other ∈ before, .remove other ∉ changes → other ∈ ahead
  behind : ∀ other ∈ behind, other ∈ after ∨ .add other ∈ changes

omit [DecidableEq κ] in
theorem Shifts.cons {change : Change κ} {front back ahead behind : List κ}
    (h : Shifts [change] before after front back) (hrest : Shifts changes front back ahead behind) :
    Shifts (change :: changes) before after ahead behind := by
  refine ⟨hrest.sublist.trans h.sublist, fun other ho hr => ?_, fun other ho => ?_⟩
  · rw [List.mem_cons, not_or] at hr
    exact hrest.kept other (h.kept other ho (by simpa using hr.1)) hr.2
  · rcases hrest.behind other ho with hback | hadded
    · exact (h.behind other hback).imp_right fun hnow => by simp [List.mem_singleton.mp hnow]
    · exact .inr (List.mem_cons_of_mem _ hadded)

theorem place_apply {change : Change κ} (hc : change ≠ .remove observer) :
    ∃ ahead behind, apply (before ++ observer :: after) change = ahead ++ observer :: behind ∧
      Shifts [change] before after ahead behind := by
  cases change with
  | add other =>
    by_cases ho : other ∈ before ++ observer :: after
    · exact ⟨before, after, apply_add_known ho, .refl before, fun _ h _ => h, fun _ h => .inl h⟩
    · refine ⟨before, after ++ [other], ?_, .refl before, fun _ h _ => h, ?_⟩
      · rw [apply_add_new ho, List.append_assoc, List.cons_append]
      · simp
  | remove other =>
    have hne : observer ≠ other := fun h => hc (h ▸ rfl)
    by_cases ho : other ∈ before
    · refine ⟨before.erase other, after, ?_, List.erase_sublist, fun kept hk hr => ?_,
        fun _ h => .inl h⟩
      · rw [apply_remove, List.erase_append_left _ ho]
      · exact (List.mem_erase_of_ne fun h => hr (by simp [h])).mpr hk
    · refine ⟨before, after.erase other, ?_, .refl before, fun _ h _ => h, fun _ h => .inl ?_⟩
      · rw [apply_remove, List.erase_append_right _ ho, List.erase_cons_tail (by simpa using hne)]
      · exact List.mem_of_mem_erase h

theorem place_foldl (before after : List κ) (hc : .remove observer ∉ changes) :
    ∃ ahead behind,
      changes.foldl apply (before ++ observer :: after) = ahead ++ observer :: behind ∧
        Shifts changes before after ahead behind := by
  induction changes generalizing before after with
  | nil => exact ⟨before, after, rfl, .refl before, fun _ h _ => h, fun _ h => .inl h⟩
  | cons change rest ih =>
    rw [List.mem_cons, not_or] at hc
    obtain ⟨front, back, hsplit, hfirst⟩ := place_apply (fun h => hc.1 h.symm)
    obtain ⟨ahead, behind, hall, hrest⟩ := ih front back hc.2
    exact ⟨ahead, behind, by rw [List.foldl_cons, hsplit, hall], hfirst.cons hrest⟩

end Change

def registered (history : List (Change κ)) : List κ := history.foldl Change.apply []

theorem registered_append (history changes : List (Change κ)) :
    registered (history ++ changes) = changes.foldl Change.apply (registered history) :=
  List.foldl_append

theorem registered_nodup (history : List (Change κ)) : (registered history).Nodup :=
  Change.nodup_foldl List.nodup_nil history

/-- The registry holds those who have been registered since some call, nobody twice, and lists them
in the order of these calls. -/
structure Keeps (history : List (Change κ)) (registry : List κ) : Prop where
  nodup : registry.Nodup
  mem_iff : ∀ observer, observer ∈ registry ↔ ∃ time, Since history time observer
  order : ∀ first second observer other, Since history first observer →
    Since history second other → first < second → [observer, other].Sublist registry

section Keeps

variable {history : List (Change κ)} {registry : List κ} {change : Change κ}

theorem Keeps.apply (h : Keeps history registry) (change : Change κ) :
    Keeps (history ++ [change]) (Change.apply registry change) := by
  refine ⟨Change.nodup_apply h.nodup change, fun observer => ?_, ?_⟩
  · rw [Change.mem_apply h.nodup, h.mem_iff, exists_since_append]
  · intro first second observer other hfirst hsecond hlt
    have hlength := hsecond.lt_length
    rw [List.length_append, List.length_singleton] at hlength
    obtain ⟨hobserver, hkept⟩ := (since_append_old (by omega)).mp hfirst
    rcases earlier_or_last hsecond.added with ⟨hold, -⟩ | ⟨rfl, -⟩
    · obtain ⟨hother, hstays⟩ := (since_append_old hold).mp hsecond
      have hpair := h.order first second observer other hobserver hother hlt
      cases change with
      | add new =>
        by_cases hn : new ∈ registry
        · rwa [Change.apply_add_known hn]
        · rw [Change.apply_add_new hn]
          exact hpair.trans (List.sublist_append_left _ _)
      | remove gone =>
        have hsame : [observer, other].erase gone = [observer, other] := by
          refine List.erase_of_not_mem ?_
          grind
        rw [Change.apply_remove, ← hsame]
        exact hpair.erase gone
    · obtain ⟨rfl, hnew⟩ := since_append_new.mp hsecond
      have habsent : other ∉ registry := by
        rw [h.mem_iff]
        exact not_exists.mpr hnew
      have hpresent : observer ∈ registry := (h.mem_iff observer).mpr ⟨first, hobserver⟩
      rw [Change.apply_add_new habsent]
      exact (List.singleton_sublist.mpr hpresent).append (.refl [other])

theorem registered_keeps (history : List (Change κ)) : Keeps history (registered history) := by
  induction history using List.reverseRecOn with
  | nil =>
    refine ⟨List.nodup_nil, fun observer => iff_of_false List.not_mem_nil ?_, ?_⟩
    · exact fun ⟨_, hs⟩ => not_since_nil hs
    · exact fun _ _ _ _ hs => absurd hs not_since_nil
  | append_singleton history change ih =>
    rw [registered_append]
    exact ih.apply change

end Keeps

end ByteMachine.Session
