import Cameo.Daemon.Sessions
import Cameo.Library.Run

/-!
# What heartbeats may not do

A harness posts its whole session on every heartbeat, the capability for VRAM included.  Over any
run of the board's operations, what it posts there has no effect: a capability comes from the
supervisor's operations, and a session that was recovered from disk has no standing until a
heartbeat of it has been persisted.
-/

namespace Cameo.Daemon

open Json Library Store Supervisor

/-- An operation on the board, with the clock readings it takes and what its persisting answers. -/
inductive BoardOp where
  | recover (seen : String → Instant) (records : List Value)
  | upsert (nowMillis : ℕ) (seen : Instant) (session : Session)
      (persist : Session → Except String Unit)
  | recordVram (id : String) (vram : VramCapability) (seen : Instant)
  | list (now : Instant)
  | remove (id : String)

/-- The same operation, with nothing in the field that a heartbeat has no say in. -/
def BoardOp.withoutPosted : BoardOp → BoardOp
  | .upsert nowMillis seen session persist =>
    .upsert nowMillis seen { session with vram := .default } persist
  | op => op

namespace Board

def capability (board : Board) (id : String) : Option VramCapability :=
  (board.get id).map Session.vram

/-- The board after an operation.  Recovery replaces the board; it fails as a whole. -/
def step (board : Board) : BoardOp → Board
  | .recover seen records =>
    match recover seen records with
    | .ok recovered => recovered
    | .error _ => board
  | .upsert nowMillis seen session persist =>
    (board.upsertDurable nowMillis seen session
      (fun session state ↦ (persist session, state)) ()).2.1
  | .recordVram id vram seen => (board.recordVram id vram seen).2
  | .list now => (board.list now).2
  | .remove id => (board.remove id).2

/-- Where the capability of a session comes from after an operation. -/
def GrantedBy (board : Board) (op : BoardOp) (id : String) (vram : VramCapability) : Prop :=
  match op with
  | .recover seen records =>
    if (recover seen records).isOk then vram = .default else board.capability id = some vram
  | .upsert _ _ _ _ => vram = (board.capability id).getD .default
  | .recordVram target granted _ =>
    if target = id then vram = granted else board.capability id = some vram
  | .list _ => board.capability id = some vram
  | .remove _ => board.capability id = some vram

/-- The operation is a heartbeat that could not be persisted. -/
def FailsToPersist (board : Board) : BoardOp → Prop
  | .upsert nowMillis _ session persist =>
    ∃ e, persist (board.prepared nowMillis session) = .error e
  | _ => False

/-- The operation is a heartbeat of the session that has been persisted. -/
def PersistsHeartbeat (id : String) (board : Board) : BoardOp → Prop
  | .upsert nowMillis _ session persist =>
    (board.prepared nowMillis session).id = id ∧
      persist (board.prepared nowMillis session) = .ok ()
  | _ => False

/-! ## One operation -/

theorem get_file (board : Board) (live : Live) (id : String) :
    (board.file live).inner.get? id =
      if live.session.id = id then some live else board.inner.get? id :=
  Ordered.Map.get?_insert _ _ _ _

/-- What is recovered is marked as such and has no capability. -/
def AllRecovered (board : Board) : Prop :=
  ∀ id live, board.inner.get? id = some live →
    live.recovered = true ∧ live.session.vram = .default

theorem allRecovered_loop {seen : String → Instant} {records : List Value} {start board : Board}
    (hstart : start.AllRecovered) (h : recover.loop seen start records = .ok board) :
    board.AllRecovered := by
  induction records generalizing start with
  | nil =>
    obtain rfl := Except.ok.inj h
    exact hstart
  | cons record rest ih =>
    unfold recover.loop at h
    cases hsession : Session.fromValue record with
    | none =>
      rw [hsession] at h
      cases h
    | some session =>
      rw [hsession] at h
      refine ih ?_ h
      intro id live hget
      rw [get_file] at hget
      split at hget
      · obtain rfl := Option.some.inj hget
        exact ⟨rfl, rfl⟩
      · exact hstart id live hget

theorem allRecovered_recover {seen : String → Instant} {records : List Value} {board : Board}
    (h : recover seen records = .ok board) : board.AllRecovered := by
  refine allRecovered_loop ?_ h
  intro id live hget
  cases hget

/-- A heartbeat is prepared in the same way whatever it posts as its capability. -/
theorem prepared_vram (board : Board) (nowMillis : ℕ) (session : Session) (vram : VramCapability) :
    board.prepared nowMillis { session with vram := vram } = board.prepared nowMillis session := rfl

theorem vram_prepared (board : Board) (nowMillis : ℕ) (session : Session) :
    (board.prepared nowMillis session).vram =
      (board.capability (board.prepared nowMillis session).id).getD .default := by
  unfold prepared capability get
  rw [Option.map_map]
  rfl

/-- A heartbeat files what was prepared if that has been persisted, and otherwise nothing. -/
theorem step_upsert (board : Board) (nowMillis : ℕ) (seen : Instant) (session : Session)
    (persist : Session → Except String Unit) :
    board.step (.upsert nowMillis seen session persist) =
      match persist (board.prepared nowMillis session) with
      | .ok () => board.file ⟨board.prepared nowMillis session, seen, false⟩
      | .error _ => board := by
  unfold step upsertDurable
  dsimp only
  cases persist (board.prepared nowMillis session) with
  | ok _ => rfl
  | error e => rfl

theorem step_recover_ok (board : Board) {seen : String → Instant} {records : List Value}
    {recovered : Board} (h : recover seen records = .ok recovered) :
    board.step (.recover seen records) = recovered := by
  simp only [step, h]

theorem step_recover_error (board : Board) {seen : String → Instant} {records : List Value}
    {e : String} (h : recover seen records = .error e) :
    board.step (.recover seen records) = board := by
  simp only [step, h]

theorem capability_eq_some {board : Board} {id : String} {vram : VramCapability} :
    board.capability id = some vram ↔
      ∃ live, board.inner.get? id = some live ∧ live.session.vram = vram := by
  unfold capability get
  rw [Option.map_map, Option.map_eq_some_iff]
  rfl

/-- The operation sets the capability of a session. -/
def Sets (id : String) : BoardOp → Prop
  | .recover seen records => (recover seen records).isOk
  | .recordVram target _ _ => target = id
  | _ => False

/-- Where the entry of a session comes from after an operation. -/
inductive EntryAfter (board : Board) (id : String) : BoardOp → Live → Prop
  | kept {op : BoardOp} {live : Live} (h : board.inner.get? id = some live) (hop : ¬ Sets id op) :
      EntryAfter board id op live
  | recovered {seen : String → Instant} {records : List Value} {live : Live}
      (hok : (recover seen records).isOk) (hmark : live.recovered = true)
      (hvram : live.session.vram = .default) : EntryAfter board id (.recover seen records) live
  | heartbeat {nowMillis : ℕ} {seen : Instant} {session : Session}
      {persist : Session → Except String Unit} (hid : (board.prepared nowMillis session).id = id)
      (hpersist : persist (board.prepared nowMillis session) = .ok ()) :
      EntryAfter board id (.upsert nowMillis seen session persist)
        ⟨board.prepared nowMillis session, seen, false⟩
  | recorded {vram : VramCapability} {seen : Instant} {previous : Live}
      (h : board.inner.get? id = some previous) : EntryAfter board id (.recordVram id vram seen)
        { previous with session := { previous.session with vram := vram }, seen := seen }

theorem entryAfter_step {board : Board} {op : BoardOp} {id : String} {live : Live}
    (h : (board.step op).inner.get? id = some live) : board.EntryAfter id op live := by
  cases op with
  | recover seen records =>
    cases hrecover : recover seen records with
    | error e =>
      rw [step_recover_error board hrecover] at h
      refine .kept h ?_
      simp [Sets, hrecover, Except.isOk, Except.toBool]
    | ok recovered =>
      rw [step_recover_ok board hrecover] at h
      obtain ⟨hmark, hvram⟩ := allRecovered_recover hrecover id live h
      exact .recovered (by rw [hrecover]; rfl) hmark hvram
  | upsert nowMillis seen session persist =>
    rw [step_upsert] at h
    split at h
    · rename_i hpersist
      rw [get_file] at h
      split at h
      · rename_i hid
        obtain rfl := Option.some.inj h
        exact .heartbeat hid hpersist
      · exact .kept h not_false
    · exact .kept h not_false
  | recordVram target vram seen =>
    simp only [step, recordVram] at h
    split at h
    · rename_i hnone
      refine .kept h ?_
      rintro rfl
      cases hnone.symm.trans h
    · rename_i previous hprevious
      have hfiled := board.filed target previous hprevious
      rw [get_file] at h
      split at h
      · rename_i hid
        obtain rfl := Option.some.inj h
        obtain rfl : target = id := hfiled.symm.trans hid
        exact .recorded hprevious
      · rename_i hne
        exact .kept h fun hid ↦ hne (hfiled.trans hid)
  | list now =>
    simp only [step, list, Ordered.Map.get?_retain] at h
    exact .kept (Option.filter_eq_some_iff.mp h).1 not_false
  | remove target =>
    simp only [step, remove, Ordered.Map.get?_erase] at h
    split at h
    · cases h
    · exact .kept h not_false

/-- The capability of a session after an operation is the one it had, unless the operation records
one for it, recovers it or creates it. -/
theorem grantedBy_step {board : Board} {op : BoardOp} {id : String} {vram : VramCapability}
    (h : (board.step op).capability id = some vram) : board.GrantedBy op id vram := by
  obtain ⟨live, hget, rfl⟩ := capability_eq_some.mp h
  cases entryAfter_step hget with
  | kept hbefore hop =>
    have hcapability := capability_eq_some.mpr ⟨live, hbefore, rfl⟩
    cases op with
    | recover seen records =>
      rw [GrantedBy, if_neg (show ¬ (recover seen records).isOk from hop)]
      exact hcapability
    | upsert nowMillis seen session persist => simp [GrantedBy, hcapability]
    | recordVram target granted seen =>
      rw [GrantedBy, if_neg (show ¬ target = id from hop)]
      exact hcapability
    | list now => exact hcapability
    | remove target => exact hcapability
  | recovered hok hmark hvram => simpa [GrantedBy, hok] using hvram
  | @heartbeat nowMillis seen session persist hid hpersist =>
    rw [GrantedBy, ← hid]
    exact vram_prepared board nowMillis session
  | recorded hprevious => simp [GrantedBy]

theorem step_of_failsToPersist {board : Board} {op : BoardOp} (h : board.FailsToPersist op) :
    board.step op = board := by
  cases op with
  | upsert nowMillis seen session persist =>
    obtain ⟨e, he⟩ := h
    rw [step_upsert, he]
  | _ => exact h.elim

/-- Every entry of a session, if it has one, is marked as recovered. -/
def Unconfirmed (id : String) (board : Board) : Prop :=
  ∀ live, board.inner.get? id = some live → live.recovered = true

theorem contains_of_unconfirmed {id : String} {board : Board} (h : board.Unconfirmed id)
    (now : Instant) : board.contains id now = false := by
  unfold contains
  cases hget : board.inner.get? id with
  | none => rfl
  | some live => simp [h live hget]

/-- Only a persisted heartbeat of the session confirms it. -/
theorem unconfirmed_step {id : String} {board : Board} {op : BoardOp} (h : board.Unconfirmed id)
    (hop : ¬ PersistsHeartbeat id board op) : (board.step op).Unconfirmed id := by
  intro live hget
  cases entryAfter_step hget with
  | kept hbefore _ => exact h live hbefore
  | recovered _ hmark _ => exact hmark
  | heartbeat hid hpersist => exact absurd ⟨hid, hpersist⟩ hop
  | recorded hprevious =>
    have hmark := h _ hprevious
    exact hmark

/-- What a heartbeat posts as its capability changes nothing. -/
theorem step_withoutPosted (board : Board) (op : BoardOp) :
    board.step op.withoutPosted = board.step op := by
  cases op with
  | upsert nowMillis seen session persist =>
    rw [BoardOp.withoutPosted, step_upsert, step_upsert, prepared_vram]
  | _ => rfl

theorem run_withoutPosted (board : Board) (ops : List BoardOp) :
    Run.run step board (ops.map BoardOp.withoutPosted) = Run.run step board ops := by
  induction ops generalizing board with
  | nil => rfl
  | cons op rest ih => rw [List.map_cons, Run.run_cons, Run.run_cons, step_withoutPosted, ih]

/-! ## Whole runs -/

/-- In every run, the capability of a session is what it was, what a supervisor's operation records
or what recovery or creation begins with; a heartbeat that is not persisted changes nothing; a
session that has been recovered is not accepted until a heartbeat of it has been persisted; and runs
that differ only in what heartbeats post as their capability end with the same board. -/
theorem heartbeats_grant_no_vram (start : Board) (ops : List BoardOp) :
    Run.Meets step (fun board op ↦
      (∀ id vram, (board.step op).capability id = some vram → board.GrantedBy op id vram) ∧
      (board.FailsToPersist op → board.step op = board)) start ops ∧
    (∀ early seen records late id, ops = early ++ .recover seen records :: late →
      (recover seen records).isOk →
      Run.Meets step (fun board op ↦ ¬ PersistsHeartbeat id board op)
        (Run.run step start (early ++ [.recover seen records])) late →
      ∀ now, (Run.run step start ops).contains id now = false) ∧
    ∀ ops' : List BoardOp, ops'.map BoardOp.withoutPosted = ops.map BoardOp.withoutPosted →
      Run.run step start ops' = Run.run step start ops := by
  refine ⟨?_, ?_, ?_⟩
  · apply Run.Meets.of_forall
    intro board op
    exact ⟨fun id vram ↦ grantedBy_step, step_of_failsToPersist⟩
  · rintro early seen records late id rfl hok hlate now
    apply contains_of_unconfirmed
    rw [List.append_cons, Run.run_append]
    refine Run.invariant_run (Unconfirmed id) (fun board op ↦ unconfirmed_step) ?_ hlate
    rw [Run.run_append, Run.run_cons, Run.run_nil]
    intro live hget
    cases hrecover : recover seen records with
    | error e =>
      rw [hrecover] at hok
      cases hok
    | ok recovered =>
      rw [step_recover_ok _ hrecover] at hget
      exact (allRecovered_recover hrecover id live hget).1
  · intro ops' hsame
    rw [← run_withoutPosted, hsame, run_withoutPosted]

/-- A session that claims VRAM, is recovered and whose heartbeat cannot be persisted is not
accepted, and the claim of the heartbeat makes no difference. -/
theorem heartbeats_grant_no_vram_failed_write :
    let claim : VramCapability := { VramCapability.default with status := "resident" }
    let records := [{ Session.named "recovered" with vram := claim }.toValue]
    let refuse : Session → Except String Unit := fun _ ↦ .error "disk full"
    let ops := [.recover (fun _ ↦ 0) records,
      .upsert 5 1 { Session.named "recovered" with vram := claim } refuse]
    (recover (fun _ ↦ 0) records).isOk = true ∧
      (Run.run step .new ops).contains "recovered" 1 = false ∧
      Run.run step .new [.recover (fun _ ↦ 0) records, .upsert 5 1 (.named "recovered") refuse] =
        Run.run step .new ops := by
  have hok : (recover (fun _ ↦ 0) [{ Session.named "recovered" with
      vram := { VramCapability.default with status := "resident" } }.toValue]).isOk = true := by
    decide +kernel
  dsimp only
  obtain ⟨-, hrecovered, hposted⟩ := heartbeats_grant_no_vram .new
    [.recover (fun _ ↦ 0) [{ Session.named "recovered" with
      vram := { VramCapability.default with status := "resident" } }.toValue],
    .upsert 5 1 { Session.named "recovered" with
      vram := { VramCapability.default with status := "resident" } } fun _ ↦ .error "disk full"]
  refine ⟨hok, hrecovered [] _ _ _ "recovered" rfl hok ⟨?_, trivial⟩ 1, hposted _ rfl⟩
  rintro ⟨-, hpersisted⟩
  cases hpersisted

end Board

end Cameo.Daemon
