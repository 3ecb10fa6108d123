import Cameo.Store.Durability
import Cameo.Supervisor.Persistence

/-!
# What survives a crash of the daemon

A durable property lifted to the operations of the supervisor: if every update an operation
commits keeps the property, then it holds in the store's memory afterwards, and an opening reads it
whether the daemon crashes after the operation or at any point inside it.
-/

namespace Cameo.Supervisor

open Json Library Store

/-- The directory contents the store has gone through, newest first. -/
def passed (sup : Supervisor) : List Directory := (sup.store.map EndpointStore.passed).getD []

/-- The supervisor has a store that keeps a durable property. -/
def Keeps (p : DurableProperty) (sup : Supervisor) : Prop :=
  ∃ store, sup.store = some store ∧ store.Keeps p

/-- An operation keeps a durable property, also at the crash points inside it. -/
structure Survives (p : DurableProperty) (before after : Supervisor) : Prop where
  keeps : after.Keeps p
  passed : ∃ fresh, after.passed = fresh ++ before.passed ∧
    ∀ directory ∈ fresh, p.readable directory.newest?

variable {p : DurableProperty} {first second third : Supervisor} {codec : Codec}

theorem Survives.of_store (h : first.Keeps p) (hstore : second.store = first.store) :
    Survives p first second := by
  obtain ⟨store, hsome, hkeeps⟩ := h
  exact ⟨⟨store, hstore.trans hsome, hkeeps⟩, [], by simp [Supervisor.passed, hstore], nofun⟩

theorem Survives.trans (h : Survives p first second) (h' : Survives p second third) :
    Survives p first third := by
  obtain ⟨early, hearly, hreadEarly⟩ := h.passed
  obtain ⟨late, hlate, hreadLate⟩ := h'.passed
  refine ⟨h'.keeps, late ++ early, ?_, ?_⟩
  · rw [hlate, hearly, List.append_assoc]
  · intro directory hmem
    rcases List.mem_append.mp hmem with hmem | hmem
    · exact hreadLate directory hmem
    · exact hreadEarly directory hmem

theorem survives_commitStore {io : CommitIo} {update : IntentState → IntentState}
    (h : first.Keeps p) (hupdate : ∀ state, p.state state → p.state (update state))
    (hstore : second.store = (commitStore codec io update first.store).2) :
    Survives p first second := by
  obtain ⟨store, hsome, hkeeps⟩ := h
  rw [hsome] at hstore
  obtain ⟨hafter, ⟨fresh, hpassed, hread⟩, -⟩ :=
    EndpointStore.keeps_commit codec io hkeeps (hupdate _ hkeeps.state)
  refine ⟨⟨_, hstore, hafter⟩, fresh, ?_, hread⟩
  rw [passed, passed, hstore, hsome]
  exact hpassed

/-- What an operation persists survives, if its update keeps the property. -/
theorem Persists.survives {update : Option Update} (h : Persists codec first second update)
    (hkeeps : first.Keeps p)
    (hupdate : ∀ applied, update = some applied → ∀ state, p.state state →
      p.state (applied.apply first.leases state)) :
    Survives p first second := by
  cases h with
  | quiet hstore _ => exact .of_store hkeeps hstore
  | failed _ hstore _ => exact survives_commitStore hkeeps (hupdate _ rfl) hstore
  | committed _ hstore _ => exact survives_commitStore hkeeps (hupdate _ rfl) hstore

/-- A start survives, if retracting intents and adding its own keep the property. -/
theorem survives_start {req : StartRequest} {io : StartIo} (hkeeps : first.Keeps p)
    (hretract : ∀ victims state, p.state state →
      p.state { state with endpoints := intended victims none state.endpoints })
    (hadd : ∀ state, p.state state →
      p.state { state with endpoints := state.endpoints.insert req.id req.intent }) :
    Survives p first (start codec req io first).sup := by
  obtain ⟨middle, early, late, hearly, hlate, hretraction, haddition⟩ :=
    persists_start codec first req io
  have hmiddle : Survives p first middle := by
    apply hearly.survives hkeeps
    intro applied happlied state hstate
    obtain ⟨victims, rfl⟩ := hretraction applied happlied
    exact hretract victims state hstate
  refine hmiddle.trans (hlate.survives hmiddle.keeps ?_)
  intro applied happlied state hstate
  rw [haddition applied happlied]
  exact hadd state hstate

/-- A successful launch establishes the properties of its own intent. -/
theorem keeps_launch_of_ok {q : DurableProperty} {req : StartRequest} {io : StartIo} {view : Value}
    (hkeeps : first.Keeps p) (h : (launch codec req io first).result = .ok view)
    (hadd : ∀ state, p.state state →
      q.state { state with endpoints := state.endpoints.insert req.id req.intent }) :
    (launch codec req io first).sup.Keeps q := by
  obtain ⟨store, hstore, hstoreKeeps⟩ := hkeeps
  unfold launch at h ⊢
  split at h
  · cases h
  · rename_i committed hcommit
    have hok := congrArg Prod.fst hcommit
    have hafter := congrArg (fun pair ↦ (Prod.snd pair).store) hcommit
    simp only [commitIntent, commitWith, commitStore, hstore] at hok hafter
    exact ⟨_, hafter.symm,
      EndpointStore.keeps_commit_of_ok codec hstoreKeeps.bounded (hadd _ hstoreKeeps.state) hok⟩

/-- A successful start establishes the properties of its own intent, if retractions before it keep
what they need. -/
theorem keeps_start_of_ok {q : DurableProperty} {req : StartRequest} {io : StartIo} {view : Value}
    (hkeeps : first.Keeps p) (h : (start codec req io first).result = .ok view)
    (hretract : ∀ victims state, p.state state →
      p.state { state with endpoints := intended victims none state.endpoints })
    (hadd : ∀ state, p.state state →
      q.state { state with endpoints := state.endpoints.insert req.id req.intent }) :
    (start codec req io first).sup.Keeps q := by
  have hstarted := started codec req io first
  generalize start codec req io first = out at hstarted h
  cases hstarted with
  | latched _ => cases h
  | taken _ _ => cases h
  | refused _ _ _ => cases h
  | unevicted _ _ _ _ => cases h
  | @launched victims _ _ _ _ launched hlaunch =>
    have hevict : Survives p first
        (evict codec io victims { first with endpoints := (decided req io first).map }).2 := by
      apply (persists_evict codec _ io victims).of_endpoints.survives hkeeps
      intro applied happlied state hstate
      cases hvictims : victims.isEmpty with
      | true => simp [hvictims] at happlied
      | false =>
        simp only [hvictims, Bool.false_eq_true, if_false, Option.some.injEq] at happlied
        rw [← happlied]
        exact hretract victims state hstate
    subst hlaunch
    exact keeps_launch_of_ok hevict.keeps h hadd

end Cameo.Supervisor
