import Cameo.Supervisor.Persistence

/-!
# Durable intent covers every routable endpoint

An endpoint without an error has its intent in the durable state: a start commits the intent
before it spawns, and a stop or an eviction marks the endpoint as failed whenever it has retracted
the intent, whether or not the process is then confirmed dead.  No operation clears an error, so a
retracted endpoint never becomes ready again.
-/

namespace Cameo.Supervisor

open Json Library Store

/-- Every endpoint without an error has its intent in the durable state, if there is one. -/
def IntentCovers (sup : Supervisor) : Prop :=
  ∀ state, sup.durable = some state → ∀ endpoint ∈ sup.endpoints.entries, endpoint.error = none →
    (state.endpoints.get? endpoint.id).isSome

theorem Endpoint.Kept.error_eq_none {before after : Endpoint} (h : Endpoint.Kept before after)
    (hafter : after.error = none) : before.error = none := by
  cases hbefore : before.error with
  | none => rfl
  | some e =>
    have herror := h.error (by simp [hbefore])
    simp [hafter] at herror

/-- Operations that keep the endpoints and the intents keep the cover. -/
theorem IntentCovers.of_kept {before after : Supervisor} (h : IntentCovers before)
    (hkept : ∀ endpoint ∈ after.endpoints.entries,
      ∃ old ∈ before.endpoints.entries, Endpoint.Kept old endpoint)
    (hdurable : ∀ state, after.durable = some state → ∃ old, before.durable = some old ∧
      ∀ id, (old.endpoints.get? id).isSome → (state.endpoints.get? id).isSome) :
    IntentCovers after := by
  intro state hstate endpoint hmem herror
  obtain ⟨old, hold, hkeptOne⟩ := hkept endpoint hmem
  obtain ⟨earlier, hearlier, hintents⟩ := hdurable state hstate
  rw [hkeptOne.id]
  exact hintents old.id (h earlier hearlier old hold (hkeptOne.error_eq_none herror))

/-! ## Updates that keep intents -/

theorem isSome_recordObservation (intents : Ordered.Map String Value × Bool) (seen : Observation)
    {id : String} (h : (intents.1.get? id).isSome) :
    ((recordObservation intents seen).1.get? id).isSome := by
  unfold recordObservation
  split
  · exact h
  · rw [Ordered.Map.get?_insert]
    split
    · rfl
    · exact h

theorem isSome_recordObservations (observations : List Observation)
    (intents : Ordered.Map String Value × Bool) {id : String} (h : (intents.1.get? id).isSome) :
    ((observations.foldl recordObservation intents).1.get? id).isSome := by
  induction observations generalizing intents with
  | nil => exact h
  | cons seen rest ih => exact ih _ (isSome_recordObservation intents seen h)

/-- Only updates of the intents themselves remove intents. -/
theorem isSome_apply {update : Update} (hupdate : ∀ remove add, update ≠ .intents remove add)
    (leases : LeaseMap) {state : IntentState} {id : String}
    (h : (state.endpoints.get? id).isSome) :
    ((update.apply leases state).endpoints.get? id).isSome := by
  cases update with
  | intents remove add => exact absurd rfl (hupdate remove add)
  | observe observations => exact isSome_recordObservations observations _ h
  | claim lease => exact h
  | renew sessionId io => exact h
  | keepLeases keep => exact h
  | record session => exact h
  | forget id => exact h

/-! ## Steps -/

/-- A stop changes neither endpoints nor durable state, or has retracted the intent and keeps, of
the endpoint it was to stop, at most a parked one. -/
theorem stop_cases (codec : Codec) (sup : Supervisor) (id : String) (io : StopIo) :
    ((sup.stop codec id io).sup.endpoints = sup.endpoints ∧
        (sup.stop codec id io).sup.durable = sup.durable) ∨
      ((sup.stop codec id io).sup.durable = (sup.durable.map fun state ↦
          { state with endpoints := intended [id] none state.endpoints }) ∧
        ∀ endpoint ∈ (sup.stop codec id io).sup.endpoints.entries,
          (endpoint ∈ sup.endpoints.entries ∧ endpoint.id ≠ id) ∨ endpoint.error.isSome) := by
  unfold stop
  dsimp only
  split
  · exact .inl ⟨rfl, rfl⟩
  · split <;> rename_i heq
    · have hdurable := durable_commitWith_of_error codec (congrArg Prod.fst heq)
      obtain ⟨-, rfl⟩ := commitWith_eq codec heq
      exact .inl ⟨rfl, hdurable⟩
    · have hdurable := durable_commitWith_of_ok codec (congrArg Prod.fst heq)
      obtain ⟨-, rfl⟩ := commitWith_eq codec heq
      have herased : ∀ endpoint ∈ (sup.endpoints.erase id).entries,
          (endpoint ∈ sup.endpoints.entries ∧ endpoint.id ≠ id) ∨ endpoint.error.isSome :=
        fun endpoint hmem ↦ .inl ((sup.endpoints.mem_erase id endpoint).mp hmem)
      split
      · exact .inr ⟨hdurable, herased⟩
      · rename_i tracked hget
        split
        · rename_i e parked hstop
          have herror := Endpoint.error_stopOwned io.termination tracked
          have hevolved := Endpoint.kept_stopOwned io.termination tracked
          rw [hstop] at herror hevolved
          have hid : parked.id = id := hevolved.id.trans (Keyed.Table.key_of_get? hget)
          refine .inr ⟨hdurable, fun endpoint hmem ↦ ?_⟩
          rcases (sup.endpoints.mem_insert parked endpoint).mp hmem with rfl | ⟨hmem, hne⟩
          · exact .inr herror
          · exact .inl ⟨hmem, hid ▸ hne⟩
        · exact .inr ⟨hdurable, herased⟩

theorem intentCovers_stop (codec : Codec) {sup : Supervisor} (id : String) (io : StopIo)
    (h : IntentCovers sup) : IntentCovers (sup.stop codec id io).sup := by
  intro state hstate endpoint hmem herror
  rcases stop_cases codec sup id io with ⟨hendpoints, hdurable⟩ | ⟨hdurable, hkept⟩
  · rw [hendpoints] at hmem
    exact h state (hdurable ▸ hstate) endpoint hmem herror
  · rw [hdurable] at hstate
    obtain ⟨old, hold, rfl⟩ := Option.map_eq_some_iff.mp hstate
    rcases hkept endpoint hmem with ⟨hmem, hne⟩ | hparked
    · have hother : endpoint.id ∉ [id] := by simpa using hne
      simp only [get?_intended_none, if_neg hother]
      exact h old hold endpoint hmem herror
    · simp [herror] at hparked

theorem intentCovers_perform (codec : Codec) (sys : Sys) (call : Call) (h : IntentCovers sys.sup) :
    IntentCovers (call.perform codec sys).sup := by
  by_cases hcall : ∃ id io, call = .stop id io
  · obtain ⟨id, io, rfl⟩ := hcall
    exact intentCovers_stop codec id io h
  · refine h.of_kept (fun _ hmem ↦ kept_perform codec sys call hmem) ?_
    intro state hstate
    rcases (persists_perform codec sys call).memory with
      ⟨hdurable, -⟩ | ⟨update, hupdate, hdurable, -⟩
    · exact ⟨state, hdurable ▸ hstate, fun _ hsome ↦ hsome⟩
    · rw [hdurable] at hstate
      obtain ⟨old, hold, rfl⟩ := Option.map_eq_some_iff.mp hstate
      refine ⟨old, hold, fun id hsome ↦ ?_⟩
      refine isSome_apply ?_ _ hsome
      rintro remove add rfl
      cases commits_of_update hupdate with
      | retract id io => exact hcall ⟨id, io, rfl⟩

/-- An eviction parks or removes every endpoint whose intent it has retracted. -/
theorem intentCovers_evict (codec : Codec) {sup : Supervisor} (io : StartIo)
    (victims : List String) (h : IntentCovers sup) :
    IntentCovers (evict codec io victims sup).2 := by
  intro state hstate endpoint hmem herror
  rcases evict_cases codec io victims sup with ⟨-, hsame, hdurable⟩ | ⟨-, hstopped, hdurable⟩
  · rw [hsame] at hmem
    exact h state (hdurable ▸ hstate) endpoint hmem herror
  · rw [hdurable] at hstate
    obtain ⟨old, hold, rfl⟩ := Option.map_eq_some_iff.mp hstate
    rw [hstopped] at hmem
    rcases mem_stopVictims hmem with hmarked | ⟨-, hparked, -⟩
    · obtain ⟨earlier, hearlier, -, hsame, hvictim⟩ := mem_markVictims hmarked
      have hother : endpoint.id ∉ victims := by
        intro hin
        have hsome := hvictim hin
        simp [herror] at hsome
      obtain rfl := hsame hother
      simp only [get?_intended_none, if_neg hother]
      exact h old hold endpoint hearlier herror
    · simp [herror] at hparked

/-- A launch commits the intent of the endpoint it adds. -/
theorem intentCovers_launch (codec : Codec) {sup : Supervisor} (req : StartRequest) (io : StartIo)
    (h : IntentCovers sup) : IntentCovers (launch codec req io sup).sup := by
  intro state hstate endpoint hmem herror
  rcases launch_cases codec req io sup with ⟨e, heq, hdurable⟩ | ⟨heq, hdurable⟩
  · rw [hdurable] at hstate
    rw [heq] at hmem
    exact h state hstate endpoint hmem herror
  · rw [hdurable] at hstate
    obtain ⟨old, hold, rfl⟩ := Option.map_eq_some_iff.mp hstate
    rw [heq] at hmem
    simp only [Ordered.Map.get?_insert]
    rcases (Keyed.Table.mem_insert _ _ _).mp hmem with rfl | ⟨hmem, -⟩
    · rw [Endpoint.id_refresh]
      simp [newEndpoint]
    · split
      · rfl
      · exact h old hold endpoint hmem herror

theorem intentCovers_start (codec : Codec) {sup : Supervisor} (req : StartRequest) (io : StartIo)
    (h : IntentCovers sup) : IntentCovers (start codec req io sup).sup := by
  have hrefreshed (map : EndpointMap)
      (hmap : ∃ P, MapEvolved P sup.endpoints map) :
      IntentCovers { sup with endpoints := map } := by
    obtain ⟨P, hevolved⟩ := hmap
    exact h.of_kept (fun _ ↦ hevolved.kept) fun state hstate ↦ ⟨state, hstate, fun _ hsome ↦ hsome⟩
  have hdecided : IntentCovers { sup with endpoints := (decided req io sup).map } :=
    hrefreshed _ ⟨_, (decided_refreshes req io sup).evolved⟩
  have hstarted := started codec req io sup
  generalize start codec req io sup = out at hstarted
  cases hstarted with
  | latched _ => exact h
  | taken _ _ => exact hrefreshed _ ⟨_, (checkPort_refreshes req io sup.endpoints).evolved⟩
  | refused _ _ _ => exact hdecided
  | @unevicted _ victims _ _ _ _ => exact intentCovers_evict codec io victims hdecided
  | @launched victims _ _ _ _ launched hlaunch =>
    exact hlaunch ▸ intentCovers_launch codec req io (intentCovers_evict codec io victims hdecided)

/-- After every run, whichever commits and terminations failed in it, an endpoint that reports
ready has its intent in the durable state. -/
theorem ready_has_intent {codec : Codec} {sup : Supervisor} (hinitial : Initial codec sup)
    (labels : List Label) {state : IntentState}
    (hstate : ((Sys.fresh sup).run codec labels).sup.durable = some state) {endpoint : Endpoint}
    (hmem : endpoint ∈ ((Sys.fresh sup).run codec labels).sup.endpoints.entries)
    (hready : endpoint.isReady = true) :
    ∃ intent, state.endpoints.get? endpoint.id = some intent := by
  have hcovers : IntentCovers ((Sys.fresh sup).run codec labels).sup := by
    refine Run.invariant_run_of_step (fun sys : Sys ↦ IntentCovers sys.sup) ?_ labels ?_
    · intro sys label h
      cases label with
      | start req io => exact intentCovers_start codec req io h
      | call call => exact intentCovers_perform codec sys call h
    · intro _ _ endpoint hmem
      change endpoint ∈ sup.endpoints.entries at hmem
      rw [hinitial.endpoints.1] at hmem
      exact absurd hmem List.not_mem_nil
  have herror : endpoint.error = none := by
    simp only [Endpoint.isReady, Bool.and_eq_true, Option.isNone_iff_eq_none] at hready
    exact hready.2
  exact Option.isSome_iff_exists.mp (hcovers state hstate endpoint hmem herror)

/-- The digest and the length of the one snapshot committed below. -/
def alphaCodec : Codec :=
  ⟨fun _ ↦ "5e3697d425b41a62c22ca82b724b1194a13a166d30322828031a5677dd269271", fun _ ↦ 171⟩

/-- A model is started on an empty store and answers its first probe. -/
def alphaReady : List Label :=
  .start (.simple "alpha" 8080 8 16 true) (.plain 0 ⟨101, 1⟩) :: (healthyPass 1000000000).take 4

theorem ready_has_intent_alphaReady :
    let sys := (Sys.fresh openedEmpty).run alphaCodec alphaReady
    ∃ intent, (sys.sup.durable.get (by decide)).endpoints.get?
      (sys.sup.endpoints.entries.head (by decide)).id = some intent :=
  ready_has_intent (initial_openedEmpty _) alphaReady (by simp) (List.head_mem _) (by decide)

end Cameo.Supervisor
