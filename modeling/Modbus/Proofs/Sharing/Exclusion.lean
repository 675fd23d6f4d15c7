import Modbus.Proofs.Sharing.Basic

/-! Executions side by side exclude each other upstream: nothing is written to the line while the
call of another execution goes on. -/

namespace Modbus

/-! ### Logs -/

/-- The call of the execution is going on, and the calls of all others that have begun have
ended. -/
structure MayWrite {κ : Type} (before : List (Event κ)) (k : κ) : Prop where
  asked : ∃ unit request, .asks k unit request ∈ before
  not_ended : ∀ answer, .ends k answer ∉ before
  others : ∀ k' unit request, k' ≠ k → .asks k' unit request ∈ before →
    ∃ answer, .ends k' answer ∈ before

/-- Whatever is written is written while it may be. -/
def Exclusive {κ : Type} (log : List (Event κ)) : Prop :=
  ∀ before k bytes after, log = before ++ .writes k bytes :: after → MayWrite before k

theorem Exclusive.append {κ : Type} {log more : List (Event κ)} (h : Exclusive log)
    (hmore : ∀ before k bytes after, more = before ++ .writes k bytes :: after →
      MayWrite (log ++ before) k) : Exclusive (log ++ more) := by
  intro before k bytes after heq
  rcases List.append_eq_append_iff.mp heq with ⟨mid, rfl, hmid⟩ | ⟨mid, hlog, hmid⟩
  · exact hmore mid k bytes after hmid
  · cases mid with
    | nil =>
      rw [List.append_nil] at hlog
      have hstart := hmore [] k bytes after hmid.symm
      rwa [List.append_nil, hlog] at hstart
    | cons e rest =>
      obtain ⟨rfl, -⟩ := List.cons.inj hmid
      exact h before k bytes rest hlog

theorem Exclusive.append_of_not_writes {κ : Type} {log : List (Event κ)} {e : Event κ}
    (h : Exclusive log) (he : ∀ k bytes, e ≠ .writes k bytes) : Exclusive (log ++ [e]) := by
  refine h.append fun before k bytes after heq => ?_
  rcases List.append_eq_singleton_iff.mp heq.symm with ⟨-, hlast⟩ | ⟨-, ⟨⟩⟩
  exact (he k bytes (List.cons.inj hlast).1.symm).elim

theorem Exclusive.append_writes {κ : Type} {log : List (Event κ)} {k : κ} (h : Exclusive log)
    (hmay : MayWrite log k) (groups : List (List UInt8)) :
    Exclusive (log ++ groups.map (.writes k)) := by
  refine h.append fun before k' bytes after heq => ?_
  have hwrites : ∀ e ∈ before ++ .writes k' bytes :: after, ∃ bytes, e = .writes k bytes := by
    rw [← heq]
    intro e he
    obtain ⟨bytes, -, rfl⟩ := List.mem_map.mp he
    exact ⟨bytes, rfl⟩
  obtain ⟨_, hk⟩ := hwrites (.writes k' bytes) (List.mem_append_right _ List.mem_cons_self)
  cases hk
  have hsame : ∀ e, (∀ bytes, e ≠ .writes k bytes) → (e ∈ log ++ before ↔ e ∈ log) := by
    intro e he
    rw [List.mem_append, or_iff_left]
    intro hbefore
    obtain ⟨bytes, rfl⟩ := hwrites e (List.mem_append_left _ hbefore)
    exact he bytes rfl
  obtain ⟨⟨unit, request, hasked⟩, hended, hothers⟩ := hmay
  refine ⟨⟨unit, request, List.mem_append_left _ hasked⟩, fun answer => ?_,
    fun k' unit request hk hasked => ?_⟩
  · rw [hsame _ (by rintro _ ⟨⟩)]
    exact hended answer
  · rw [hsame _ (by rintro _ ⟨⟩)] at hasked
    obtain ⟨answer, hanswer⟩ := hothers k' unit request hk hasked
    exact ⟨answer, List.mem_append_left _ hanswer⟩

namespace Setting

variable {ι κ σ : Type} {w : Setting ι κ σ} {k k' : κ} {s s' : Sharing ι κ σ}

/-! ### Exclusion -/

/-- The execution has the client. -/
structure Calls (w : Setting ι κ σ) (s : Sharing ι κ σ) (k : κ) : Prop where
  working : ∃ notes request resume, s.working (w.gateway k) = some (k, .ask notes request resume)
  calling : ∃ course, s.calling = some (w.gateway k, course)

theorem Calls.eq (h : w.Calls s k) (h' : w.Calls s k') : k' = k := by
  obtain ⟨⟨_, _, _, hworking⟩, ⟨_, hcalling⟩⟩ := h
  obtain ⟨⟨_, _, _, hworking'⟩, ⟨_, hcalling'⟩⟩ := h'
  have hgateway : w.gateway k = w.gateway k' :=
    congrArg Prod.fst (Option.some.inj (hcalling.symm.trans hcalling'))
  rw [hgateway] at hworking
  exact congrArg Prod.fst (Option.some.inj (hworking'.symm.trans hworking))

/-- What the log tells about who has the client: an execution that has asked and whose call has not
ended, and nobody else. -/
structure Recorded (w : Setting ι κ σ) (s : Sharing ι κ σ) : Prop where
  exclusive : Exclusive s.log
  asked : ∀ k unit request, .asks k unit request ∈ s.log →
    w.Calls s k ∨ ∃ answer, .ends k answer ∈ s.log
  calls : ∀ k, w.Calls s k → ∃ unit request, .asks k unit request ∈ s.log
  ended : ∀ k answer, .ends k answer ∈ s.log →
    (s.served k).isSome = true ∨ ∃ served, s.working (w.gateway k) = some (k, .done served)

theorem recorded_start (upstream : σ) (devices : ι → Device) :
    w.Recorded (.start upstream devices) := by
  refine ⟨fun before k bytes after h => ?_, by rintro _ _ _ ⟨⟩, ?_, by rintro _ _ ⟨⟩⟩
  · exact (List.append_ne_nil_of_right_ne_nil before (List.cons_ne_nil _ after) h.symm).elim
  · rintro k ⟨-, ⟨course, ⟨⟩⟩⟩

theorem Recorded.mayWrite (h : w.Recorded s) (hs : w.Consistent s) (hcalls : w.Calls s k) :
    MayWrite s.log k := by
  refine ⟨h.calls k hcalls, fun answer hanswer => ?_, fun k' unit request hne hasked => ?_⟩
  · obtain ⟨notes, request, resume, hworking⟩ := hcalls.working
    rcases h.ended k answer hanswer with hserved | ⟨served, hdone⟩
    · rw [(hs.working _ k _ hworking).2] at hserved
      cases hserved
    · cases hdone.symm.trans hworking
  · rcases h.asked k' unit request hasked with hcalls' | hended
    · exact (hne (hcalls.eq hcalls')).elim
    · exact hended

/-- No matter who holds other maps, those who have the client keep it. -/
theorem calls_congr (hcalling : s'.calling = s.calling)
    (hworking : ∀ course, s.calling = some (w.gateway k, course) →
      s'.working (w.gateway k) = s.working (w.gateway k)) : w.Calls s' k ↔ w.Calls s k := by
  refine ⟨fun ⟨⟨notes, request, resume, hk⟩, ⟨course, hc⟩⟩ => ?_,
    fun ⟨⟨notes, request, resume, hk⟩, ⟨course, hc⟩⟩ => ?_⟩
  · rw [hcalling] at hc
    rw [hworking course hc] at hk
    exact ⟨⟨notes, request, resume, hk⟩, ⟨course, hc⟩⟩
  · rw [← hworking course hc] at hk
    rw [← hcalling] at hc
    exact ⟨⟨notes, request, resume, hk⟩, ⟨course, hc⟩⟩

variable [DecidableEq ι]

theorem mem_decision {e : Event κ} {plan : Plan Served} (h : e ∈ decision k plan) :
    e = .decides k := by
  cases plan with
  | done => exact List.mem_singleton.mp h
  | ask => cases h

theorem Recorded.enter (h : w.Recorded s) (hs : w.Consistent s)
    (hfree : s.working (w.gateway k) = none) : w.Recorded (w.enter s k) := by
  have hne : ∀ {i held}, s.working i = some held → i ≠ w.gateway k := by
    rintro i held hi rfl
    cases hfree.symm.trans hi
  have hcalls : ∀ k', w.Calls (w.enter s k) k' ↔ w.Calls s k' := fun _ =>
    calls_congr rfl fun _ hcalling => Function.update_of_ne (hs.ne_of_free hcalling hfree) ..
  have hmem : ∀ e, (∀ k, e ≠ .decides k) → e ∈ (w.enter s k).log → e ∈ s.log := by
    intro e he hlog
    exact (List.mem_append.mp hlog).resolve_right fun hnew => he k (mem_decision hnew)
  refine ⟨h.exclusive.append fun before k' bytes after heq => ?_,
    fun k' unit request hasked => ?_, fun k' hk => ?_, fun k' answer hended => ?_⟩
  · have hwrites : Event.writes k' bytes ∈ decision k (w.plan s k) := by
      rw [heq]
      exact List.mem_append_right _ List.mem_cons_self
    cases mem_decision hwrites
  · rw [hcalls]
    refine (h.asked k' unit request (hmem _ (by rintro _ ⟨⟩) hasked)).imp_right ?_
    exact fun ⟨answer, hanswer⟩ => ⟨answer, List.mem_append_left _ hanswer⟩
  · obtain ⟨unit, request, hasked⟩ := h.calls k' ((hcalls k').mp hk)
    exact ⟨unit, request, List.mem_append_left _ hasked⟩
  · refine (h.ended k' answer (hmem _ (by rintro _ ⟨⟩) hended)).imp_right ?_
    exact fun ⟨served, hdone⟩ => ⟨served, (Function.update_of_ne (hne hdone) ..).trans hdone⟩

theorem Recorded.release (h : w.Recorded s) (hcalls : w.Calls s k) (answer : Answer Response)
    (served : Served) : w.Recorded (w.release s k answer served) := by
  refine ⟨h.exclusive.append_of_not_writes (by rintro _ _ ⟨⟩), fun k' unit request hasked => ?_,
    ?_, fun k' answer' hended => ?_⟩
  · rcases List.mem_append.mp hasked with hasked | hnew
    · rcases h.asked k' unit request hasked with hcalls' | ⟨answer', hended⟩
      · cases hcalls.eq hcalls'
        exact .inr ⟨answer, List.mem_append_right _ List.mem_cons_self⟩
      · exact .inr ⟨answer', List.mem_append_left _ hended⟩
    · cases List.mem_singleton.mp hnew
  · rintro k' ⟨-, ⟨course, ⟨⟩⟩⟩
  · rcases List.mem_append.mp hended with hended | hnew
    · refine (h.ended k' answer' hended).imp_right fun ⟨served', hdone⟩ => ⟨served', ?_⟩
      obtain ⟨notes, request, resume, hworking⟩ := hcalls.working
      have hne : w.gateway k' ≠ w.gateway k := by
        intro heq
        rw [heq] at hdone
        cases hdone.symm.trans hworking
      exact (Function.update_of_ne hne ..).trans hdone
    · cases List.mem_singleton.mp hnew
      exact .inr ⟨served, Function.update_self ..⟩

omit [DecidableEq ι] in
theorem Recorded.ask (h : w.Recorded s) (hcalling : s.calling = none)
    {notes : List String} {request : Request} {resume : Answer Response → Served}
    (hworking : s.working (w.gateway k) = some (k, .ask notes request resume)) :
    w.Recorded (w.ask s k request) := by
  have hcalls : w.Calls (w.ask s k request) k := ⟨⟨notes, request, resume, hworking⟩, ⟨_, rfl⟩⟩
  refine ⟨h.exclusive.append_of_not_writes (by rintro _ _ ⟨⟩), fun k' unit request' hasked => ?_,
    fun k' hcalls' => ?_, fun k' answer hended => ?_⟩
  · rcases List.mem_append.mp hasked with hasked | hnew
    · rcases h.asked k' unit request' hasked with ⟨-, ⟨course, hcalling'⟩⟩ | ⟨answer, hended⟩
      · cases hcalling.symm.trans hcalling'
      · exact .inr ⟨answer, List.mem_append_left _ hended⟩
    · cases List.mem_singleton.mp hnew
      exact .inl hcalls
  · cases hcalls.eq hcalls'
    exact ⟨_, request, List.mem_append_right _ List.mem_cons_self⟩
  · rcases List.mem_append.mp hended with hended | hnew
    · exact h.ended k' answer hended
    · cases List.mem_singleton.mp hnew

omit [DecidableEq ι] in
theorem Recorded.act (h : w.Recorded s) (hs : w.Consistent s) (hcalls : w.Calls s k)
    (act : σ → σ) (next : σ → Course σ (Answer Response)) :
    w.Recorded (w.act s k act next) := by
  obtain ⟨notes, request, resume, hworking⟩ := hcalls.working
  have hcalls' : w.Calls (w.act s k act next) k := ⟨⟨notes, request, resume, hworking⟩, ⟨_, rfl⟩⟩
  have hmem : ∀ e, (∀ bytes, e ≠ .writes k bytes) → e ∈ (w.act s k act next).log → e ∈ s.log := by
    intro e he hlog
    refine (List.mem_append.mp hlog).resolve_right fun hnew => ?_
    obtain ⟨bytes, -, rfl⟩ := List.mem_map.mp hnew
    exact he bytes rfl
  refine ⟨h.exclusive.append_writes (h.mayWrite hs hcalls) _, fun k' unit request hasked => ?_,
    fun k' hk => ?_, fun k' answer hended => ?_⟩
  · rcases h.asked k' unit request (hmem _ (by rintro _ ⟨⟩) hasked) with hk | ⟨answer, hended⟩
    · cases hcalls.eq hk
      exact .inl hcalls'
    · exact .inr ⟨answer, List.mem_append_left _ hended⟩
  · cases hcalls'.eq hk
    obtain ⟨unit, request, hasked⟩ := h.calls k hcalls
    exact ⟨unit, request, List.mem_append_left _ hasked⟩
  · exact h.ended k' answer (hmem _ (by rintro _ ⟨⟩) hended)

variable [DecidableEq κ]

theorem Recorded.leave (h : w.Recorded s) {served : Served}
    (hworking : s.working (w.gateway k) = some (k, .done served)) (hs : w.Consistent s) :
    w.Recorded (w.leave s k served) := by
  have hcalls : ∀ k', w.Calls (w.leave s k served) k' ↔ w.Calls s k' := fun _ =>
    calls_congr rfl fun _ hcalling => Function.update_of_ne (hs.ne_of_done hcalling hworking) ..
  refine ⟨h.exclusive, fun k' unit request hasked => ?_, fun k' hk => ?_,
    fun k' answer hended => ?_⟩
  · rw [hcalls]
    exact h.asked k' unit request hasked
  · exact h.calls k' ((hcalls k').mp hk)
  · by_cases hk : k' = k
    · subst hk
      have hserved : (w.leave s k' served).served k' = some served := Function.update_self ..
      exact .inl (by rw [hserved, Option.isSome_some])
    · refine (h.ended k' answer hended).imp (fun hserved => ?_) fun ⟨served', hdone⟩ => ?_
      · exact (congrArg Option.isSome (Function.update_of_ne hk ..)).trans hserved
      · refine ⟨served', (Function.update_of_ne (fun heq => ?_) ..).trans hdone⟩
        rw [heq] at hdone
        exact hk (congrArg Prod.fst (Option.some.inj (hdone.symm.trans hworking)))

theorem Recorded.steps (h : w.Recorded s) (hs : w.Consistent s) (hsteps : w.Steps k s s') :
    w.Recorded s' := by
  cases hsteps with
  | enter hfree _ => exact h.enter hs hfree
  | leave hworking => exact h.leave hworking hs
  | ask hworking hcalling => exact h.ask hcalling hworking
  | act hworking hcalling => exact h.act hs ⟨⟨_, _, _, hworking⟩, ⟨_, hcalling⟩⟩ _ _
  | release hworking hcalling => exact h.release ⟨⟨_, _, _, hworking⟩, ⟨_, hcalling⟩⟩ _ _

/-- Whatever the schedule is, the calls of executions exclude each other. -/
theorem exclusive_polls (w : Setting ι κ σ) (upstream : σ) (devices : ι → Device)
    (schedule : List κ) : Exclusive (w.polls (.start upstream devices) schedule).log := by
  have hrecorded : w.Recorded (w.polls (.start upstream devices) schedule) :=
    (invariant_polls (recorded_start upstream devices) (fun _ _ _ hs h => h.steps hs) schedule).2
  exact hrecorded.exclusive

end Setting

end Modbus
