import Mathlib.Algebra.Order.BigOperators.Group.Finset
import Mathlib.Data.Fintype.Prod
import Mathlib.Data.Prod.Lex
import Modbus.Proofs.Sharing.Basic

/-! Progress of executions side by side. As long as there is one that has not been served, one of
them can go on, and each can go on only so often: if all are polled again and again, all are
served. -/

namespace Modbus

namespace Setting

variable {ι κ σ : Type} [DecidableEq κ] {w : Setting ι κ σ} {k k' : κ} {s s' : Sharing ι κ σ}

/-- What is left of an execution that holds the map of its gateway. -/
def left? (w : Setting ι κ σ) (s : Sharing ι κ σ) (k : κ) : Option (Plan Served) :=
  match s.working (w.gateway k) with
  | none => none
  | some (k', plan) => if k' = k then some plan else none

theorem left?_of_working {plan : Plan Served} (h : s.working (w.gateway k) = some (k, plan)) :
    w.left? s k = some plan := by
  rw [left?, h]
  exact if_pos rfl

theorem left?_of_free (h : s.working (w.gateway k) = none) : w.left? s k = none := by
  rw [left?, h]

variable [DecidableEq ι]

/-- The number of steps that an execution has before it, where a call is one. -/
def stage (w : Setting ι κ σ) (s : Sharing ι κ σ) (k : κ) : ℕ :=
  match s.served k, w.left? s k with
  | some _, _ => 0
  | none, some (.done _) => 1
  | none, some (.ask ..) => if s.calling.map Prod.fst = some (w.gateway k) then 2 else 3
  | none, none => 4

theorem stage_of_served {served : Served} (h : s.served k = some served) : w.stage s k = 0 := by
  rw [stage, h]

theorem stage_of_free (hserved : s.served k = none) (h : s.working (w.gateway k) = none) :
    w.stage s k = 4 := by
  rw [stage, hserved, left?_of_free h]

theorem stage_of_done (hserved : s.served k = none) {served : Served}
    (h : s.working (w.gateway k) = some (k, .done served)) : w.stage s k = 1 := by
  rw [stage, hserved, left?_of_working h]

theorem stage_of_ask (hserved : s.served k = none) {notes : List String} {request : Request}
    {resume : Answer Response → Served}
    (h : s.working (w.gateway k) = some (k, .ask notes request resume)) :
    w.stage s k = if s.calling.map Prod.fst = some (w.gateway k) then 2 else 3 := by
  rw [stage, hserved, left?_of_working h]

/-- The number of pieces that the call that is going on has before it. -/
def pieces (s : Sharing ι κ σ) : ℕ :=
  match s.calling with
  | none => 0
  | some (_, course) => course.length s.upstream

/-! ### Steps count down -/

/-- What an execution does at its gateway is nothing to the others there. -/
theorem left?_update {x : Option (κ × Plan Served)} (hne : k' ≠ k)
    (hworking : s'.working = Function.update s.working (w.gateway k) x)
    (hbefore : ∀ held, s.working (w.gateway k) = some held → held.1 = k)
    (hafter : ∀ held, x = some held → held.1 = k) : w.left? s' k' = w.left? s k' := by
  by_cases hgateway : w.gateway k' = w.gateway k
  · have hnobody : ∀ y : Option (κ × Plan Served), (∀ held, y = some held → held.1 = k) →
        (match y with
        | none => none
        | some (k'', plan) => if k'' = k' then some plan else none) = none := by
      rintro (_ | ⟨k'', plan⟩) hy
      · rfl
      · cases hy _ rfl
        exact if_neg (Ne.symm hne)
    rw [left?, left?, hworking, hgateway, Function.update_self, hnobody _ hbefore,
      hnobody _ hafter]
  · rw [left?, left?, hworking, Function.update_of_ne hgateway]

omit [DecidableEq ι] in
/-- Who has something left at a gateway holds the map there. -/
theorem gateway_ne_of_left? {plan plan' : Plan Served} (hne : k' ≠ k)
    (hworking : s.working (w.gateway k) = some (k, plan)) (hleft : w.left? s k' = some plan') :
    w.gateway k' ≠ w.gateway k := by
  intro hgateway
  rw [left?, hgateway, hworking] at hleft
  dsimp only at hleft
  rw [if_neg (Ne.symm hne)] at hleft
  cases hleft

theorem stage_congr (hserved : s'.served k = s.served k) (hleft : w.left? s' k = w.left? s k)
    (hcalling : ∀ plan, w.left? s k = some plan →
      (s'.calling.map Prod.fst = some (w.gateway k) ↔
        s.calling.map Prod.fst = some (w.gateway k))) : w.stage s' k = w.stage s k := by
  rw [stage, stage, hserved, hleft]
  rcases s.served k with _ | served
  · rcases hplan : w.left? s k with _ | _ | ⟨notes, request, resume⟩
    · rfl
    · rfl
    · dsimp only
      rw [if_congr (hcalling _ hplan) rfl rfl]
  · rfl

/-- A step of one execution brings no other one further or back. -/
theorem stage_of_ne (hsteps : w.Steps k s s') (hne : k' ≠ k) : w.stage s' k' = w.stage s k' := by
  cases hsteps with
  | enter hfree hserved =>
    refine stage_congr rfl (left?_update hne rfl ?_ (by rintro _ ⟨⟩; rfl)) fun _ _ => Iff.rfl
    rw [hfree]
    rintro _ ⟨⟩
  | leave hworking =>
    refine stage_congr (Function.update_of_ne hne ..) (left?_update hne rfl ?_ (by rintro _ ⟨⟩))
      fun _ _ => Iff.rfl
    rw [hworking]
    rintro _ ⟨⟩
    rfl
  | ask hworking hcalling =>
    refine stage_congr rfl rfl fun plan hleft => ?_
    have hgateway := gateway_ne_of_left? hne hworking hleft
    simp only [ask, hcalling, Option.map_some, Option.map_none, Option.some.injEq, hgateway.symm,
      reduceCtorEq]
  | act hworking hcalling =>
    refine stage_congr rfl rfl fun _ _ => ?_
    simp only [Setting.act, hcalling, Option.map_some]
  | release hworking hcalling =>
    refine stage_congr rfl (left?_update hne rfl ?_ (by rintro _ ⟨⟩; rfl)) fun plan hleft => ?_
    · rw [hworking]
      rintro _ ⟨⟩
      rfl
    · have hgateway := gateway_ne_of_left? hne hworking hleft
      simp only [release, hcalling, Option.map_some, Option.map_none, Option.some.injEq,
        hgateway.symm, reduceCtorEq]

/-- A step brings its execution further, or its call. -/
theorem stage_lt_or_pieces_lt (hs : w.Consistent s) (hsteps : w.Steps k s s') :
    w.stage s' k < w.stage s k ∨ w.stage s' k = w.stage s k ∧ pieces s' < pieces s := by
  cases hsteps with
  | enter hfree hserved =>
    left
    have hserved' : (w.enter s k).served k = none := hserved
    have hworking : (w.enter s k).working (w.gateway k) = some (k, w.plan s k) :=
      Function.update_self ..
    rw [stage_of_free hserved hfree]
    rcases hplan : w.plan s k with served | ⟨notes, request, resume⟩ <;> rw [hplan] at hworking
    · rw [stage_of_done hserved' hworking]
      decide
    · rw [stage_of_ask hserved' hworking]
      split <;> decide
  | leave hworking =>
    left
    rw [stage_of_done (hs.working _ k _ hworking).2 hworking,
      stage_of_served (Function.update_self ..)]
    decide
  | ask hworking hcalling =>
    left
    have hserved := (hs.working _ k _ hworking).2
    have hbefore : w.stage s k = 3 := by
      rw [stage_of_ask hserved hworking, hcalling]
      rfl
    rename_i request _
    have hserved' : (w.ask s k request).served k = none := hserved
    have hafter : w.stage (w.ask s k request) k = 2 :=
      (stage_of_ask hserved' hworking).trans (if_pos rfl)
    rw [hbefore, hafter]
    decide
  | act hworking hcalling =>
    right
    refine ⟨stage_congr rfl rfl fun _ _ => ?_, ?_⟩
    · simp only [Setting.act, hcalling, Option.map_some]
    · simp only [pieces, Setting.act, hcalling, Course.length]
      exact Nat.lt_succ_self _
  | release hworking hcalling =>
    left
    have hserved := (hs.working _ k _ hworking).2
    have hbefore : w.stage s k = 2 := by
      rw [stage_of_ask hserved hworking, hcalling]
      exact if_pos rfl
    rename_i resume answer
    have hserved' : (w.release s k answer (resume answer)).served k = none := hserved
    have hafter : w.stage (w.release s k answer (resume answer)) k = 1 :=
      stage_of_done hserved' (Function.update_self ..)
    rw [hbefore, hafter]
    decide

/-! ### Somebody can go on -/

/-- As long as an execution has not been served, one of them can go on: the one that has the client,
or the one that holds the map of its gateway, or it. -/
theorem exists_steps (hs : w.Consistent s) (hserved : s.served k = none) :
    ∃ k, w.Steps k s (w.poll s k) := by
  rcases hcalling : s.calling with _ | ⟨i, course⟩
  · rcases hworking : s.working (w.gateway k) with _ | ⟨k', plan⟩
    · exact ⟨k, steps_of_free hserved hworking⟩
    · obtain ⟨hgateway, hserved'⟩ := hs.working _ k' plan hworking
      rw [← hgateway] at hworking
      refine ⟨k', steps_of_working hserved' hworking ?_⟩
      rw [hcalling]
      rintro _ _ ⟨⟩
  · obtain ⟨k', notes, request, resume, hworking⟩ := hs.calling i course hcalling
    obtain ⟨rfl, hserved'⟩ := hs.working i k' _ hworking
    refine ⟨k', steps_of_working hserved' hworking ?_⟩
    rw [hcalling]
    rintro _ _ ⟨⟩
    rfl

variable [Fintype κ]

/-- What is before all executions together: their steps first, then the pieces of the call that is
going on. -/
def rank (w : Setting ι κ σ) (s : Sharing ι κ σ) : ℕ ×ₗ ℕ :=
  toLex (∑ k, w.stage s k, pieces s)

theorem rank_lt (hs : w.Consistent s) (hsteps : w.Steps k s s') : w.rank s' < w.rank s := by
  have hsplit : ∀ s : Sharing ι κ σ, ∑ k', w.stage s k' =
      w.stage s k + ∑ k' ∈ Finset.univ.erase k, w.stage s k' :=
    fun s => (Finset.add_sum_erase _ _ (Finset.mem_univ k)).symm
  have hrest : ∑ k' ∈ Finset.univ.erase k, w.stage s' k' =
      ∑ k' ∈ Finset.univ.erase k, w.stage s k' :=
    Finset.sum_congr rfl fun k' hk' => stage_of_ne hsteps (Finset.ne_of_mem_erase hk')
  rw [rank, rank, Prod.Lex.toLex_lt_toLex, hsplit s, hsplit s', hrest]
  rcases stage_lt_or_pieces_lt hs hsteps with h | ⟨h, hpieces⟩
  · exact .inl (Nat.add_lt_add_right h _)
  · exact .inr ⟨by rw [h], hpieces⟩

omit [Fintype κ] in
/-- If all executions are polled again and again, all are served. -/
theorem exists_all_served [Finite κ] (hs : w.Consistent s) (turns : ℕ → κ)
    (hfair : ∀ k n, ∃ m ≥ n, turns m = k) :
    ∃ n, ∀ k, ((w.polls s ((List.range n).map turns)).served k).isSome = true := by
  obtain ⟨_⟩ := nonempty_fintype κ
  let state : ℕ → Sharing ι κ σ := fun n => w.polls s ((List.range n).map turns)
  have hsucc : ∀ n, state (n + 1) = w.poll (state n) (turns n) := by
    intro n
    simp only [state, polls, List.range_succ, List.map_append, List.map_cons, List.map_nil,
      List.foldl_append, List.foldl_cons, List.foldl_nil]
  have hconsistent : ∀ n, w.Consistent (state n) := fun n =>
    polls_induction hs (fun _ _ _ h hsteps => h.steps hsteps) _
  suffices h : ∀ r : ℕ ×ₗ ℕ, ∀ n, w.rank (state n) = r →
      ∃ n, ∀ k, ((state n).served k).isSome = true from h _ 0 rfl
  intro r
  induction r using WellFoundedLT.induction with
  | ind r ih =>
    intro n hr
    by_cases hall : ∀ k, ((state n).served k).isSome = true
    · exact ⟨n, hall⟩
    · obtain ⟨k, hk⟩ := not_forall.mp hall
      obtain ⟨k', hsteps⟩ := exists_steps (hconsistent n) (Option.not_isSome_iff_eq_none.mp hk)
      obtain ⟨m, hm, hturn⟩ := hfair k' n
      -- Until it is the turn of that execution, nothing has changed or somebody has gone on.
      have huntil : ∀ j, state (n + j) = state n ∨ ∃ m, w.rank (state m) < r := by
        intro j
        induction j with
        | zero => exact .inl rfl
        | succ j ihj =>
          rcases ihj with hsame | hless
          · rcases w.poll_eq_or_steps (state (n + j)) (turns (n + j)) with hwaits | hgoes
            · exact .inl ((hsucc (n + j)).trans (hwaits.trans hsame))
            · refine .inr ⟨n + j + 1, ?_⟩
              rw [hsucc, ← hr, ← hsame]
              exact rank_lt (hconsistent (n + j)) hgoes
          · exact .inr hless
      have hless : ∃ m, w.rank (state m) < r := by
        rcases huntil (m - n) with hsame | hless
        · rw [Nat.add_sub_cancel' hm] at hsame
          refine ⟨m + 1, ?_⟩
          rw [hsucc, hsame, hturn, ← hr]
          exact rank_lt (hconsistent n) hsteps
        · exact hless
      obtain ⟨m, hless⟩ := hless
      exact ih _ hless m rfl

end Setting

end Modbus
