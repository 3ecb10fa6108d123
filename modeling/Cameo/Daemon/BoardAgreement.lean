import Cameo.Daemon.Requests

/-!
# The board and the sessions on record

A session is to be on the board exactly if it is on record.  An upsert records and files it under
the lock of the board; a `DELETE` removes the record first and the entry later, so the two can only
agree on sessions that no deletion has half done.  They stay in agreement unless `list` prunes an
entry, which it does without the record, or a heartbeat of the session is stored between the two
halves of its deletion.
-/

namespace Cameo.Supervisor

open Json Library Store

def records (sup : Supervisor) : Option (Ordered.Map String Value) :=
  sup.durable.map IntentState.sessions

/-- The update is about endpoints or leases only. -/
def Update.KeepsSessions : Update → Prop
  | .record _ | .forget _ => False
  | _ => True

variable {codec : Codec} {before after : Supervisor}

theorem Persists.records_eq {update : Option Update} (h : Persists codec before after update)
    (hkeeps : ∀ applied, update = some applied → applied.KeepsSessions) :
    after.records = before.records := by
  unfold records
  rcases h.memory with ⟨hdurable, -⟩ | ⟨applied, happlied, hdurable, -⟩
  · rw [hdurable]
  · have happly : IntentState.sessions ∘ applied.apply before.leases = IntentState.sessions := by
      funext state
      have hkept := hkeeps applied happlied
      cases applied with
      | record session => exact hkept.elim
      | forget id => exact hkept.elim
      | intents remove add => rfl
      | claim lease => rfl
      | renew sessionId io => rfl
      | keepLeases keep => rfl
      | observe observations => rfl
    rw [hdurable, Option.map_map, happly]

theorem records_start (sup : Supervisor) (req : StartRequest) (io : StartIo) :
    (sup.start codec req io).sup.records = sup.records := by
  obtain ⟨middle, early, late, hearly, hlate, hretraction, haddition⟩ :=
    persists_start codec sup req io
  have hmiddle : middle.records = sup.records := by
    refine hearly.records_eq fun applied happlied ↦ ?_
    obtain ⟨victims, rfl⟩ := hretraction applied happlied
    trivial
  refine Eq.trans (hlate.records_eq fun applied happlied ↦ ?_) hmiddle
  rw [haddition applied happlied]
  trivial

/-- A session is on record after it was persisted. -/
theorem records_persistSession (codec : Codec) (sup : Supervisor) (session : SessionRecord)
    (io : CommitIo) :
    ((sup.persistSession codec session io).result = .ok () ∧
        (sup.persistSession codec session io).sup.records =
          sup.records.map fun sessions ↦ sessions.insert session.id session.toValue) ∨
      (∃ e, (sup.persistSession codec session io).result = .error e) ∧
        (sup.persistSession codec session io).sup.records = sup.records := by
  unfold persistSession records
  dsimp only
  cases hcommit : (commitWith codec io (fun state ↦
      { state with sessions := state.sessions.insert session.id session.toValue }) sup).1 with
  | ok _ =>
    refine .inl ⟨rfl, ?_⟩
    rw [durable_commitWith_of_ok codec hcommit, Option.map_map, Option.map_map]
    rfl
  | error e =>
    refine .inr ⟨⟨e, rfl⟩, ?_⟩
    rw [durable_commitWith_of_error codec hcommit]

/-- A session is off the record after it was removed. -/
theorem records_removeSession (codec : Codec) (sup : Supervisor) (id : String) (io : CommitIo) :
    ((sup.removeSession codec id io).result = .ok () ∧
        (sup.removeSession codec id io).sup.records =
          sup.records.map fun sessions ↦ sessions.erase id) ∨
      (∃ e, (sup.removeSession codec id io).result = .error e) ∧
        (sup.removeSession codec id io).sup.records = sup.records := by
  unfold removeSession records
  dsimp only
  split
  · rename_i e failed hcommit
    refine .inr ⟨⟨e, rfl⟩, ?_⟩
    have hdurable := durable_commitWith_of_error codec (congrArg Prod.fst hcommit)
    rw [hcommit] at hdurable
    exact congrArg _ hdurable
  · rename_i committed hcommit
    refine .inl ⟨rfl, ?_⟩
    have hdurable := durable_commitWith_of_ok codec (congrArg Prod.fst hcommit)
    rw [hcommit] at hdurable
    refine (congrArg (Option.map IntentState.sessions) hdurable).trans ?_
    rw [Option.map_map, Option.map_map]
    rfl

end Cameo.Supervisor

namespace Cameo.Daemon

open Json Library Store Supervisor

/-! ## The recovered board -/

theorem Board.isSome_recover_loop {seen : String → Instant} {records : List Value}
    {board recovered : Board} (hloop : recover.loop seen board records = .ok recovered)
    (id : String) :
    (recovered.inner.get? id).isSome ↔ (board.inner.get? id).isSome ∨
      ∃ record ∈ records, ∃ session, Session.fromValue record = some session ∧ session.id = id := by
  induction records generalizing board with
  | nil =>
    cases hloop
    simp
  | cons record rest ih =>
    rw [recover.loop] at hloop
    split at hloop
    · cases hloop
    · rename_i session hsession
      rw [ih hloop, file, Ordered.Map.get?_insert]
      by_cases hid : session.id = id
      · simp [Board.recovered, hid, hsession]
      · simp [Board.recovered, hid, hsession]

theorem Board.fromValue_of_recover_loop {seen : String → Instant} {records : List Value}
    {board recovered : Board} (hloop : recover.loop seen board records = .ok recovered) :
    ∀ record ∈ records, ∃ session, Session.fromValue record = some session := by
  induction records generalizing board with
  | nil => nofun
  | cons record rest ih =>
    rw [recover.loop] at hloop
    split at hloop
    · cases hloop
    · rename_i session hsession
      intro other hmem
      rcases List.mem_cons.mp hmem with rfl | hmem
      · exact ⟨session, hsession⟩
      · exact ih hloop other hmem

/-- A daemon that comes up has exactly the sessions on record on its board. -/
theorem isSome_recover {sup : Supervisor} (h : Orderly sup) {store : EndpointStore}
    (hstore : sup.store = some store) {seen : String → Instant} {board : Board}
    (hboard : Board.recover seen sup.recoverySessions = .ok board) (id : String) :
    (board.inner.get? id).isSome ↔ (store.state.sessions.get? id).isSome := by
  have hrecords : sup.recoverySessions = store.state.sessions.entries.map Prod.snd := by
    rw [recoverySessions, hstore]
  have hidentity (key : String) (value : Value)
      (hentry : (key, value) ∈ store.state.sessions.entries) {session : Session}
      (hsession : Session.fromValue value = some session) : session.id = key := by
    have hok := (h.store store hstore).2.sessions key value
      ((store.state.sessions.mem_entries_iff key value).mp hentry)
    simp only [sessionIdentityOk, Bool.and_eq_true, decide_eq_true_eq] at hok
    exact (Option.some.inj (hok.2.symm.trans (id_of_fromValue hsession))).symm
  rw [Board.isSome_recover_loop hboard]
  constructor
  · rintro (hnew | ⟨record, hmem, session, hsession, rfl⟩)
    · cases hnew
    · rw [hrecords] at hmem
      obtain ⟨⟨key, value⟩, hentry, rfl⟩ := List.mem_map.mp hmem
      rw [hidentity key value hentry hsession, Option.isSome_iff_exists]
      exact ⟨value, (store.state.sessions.mem_entries_iff key value).mp hentry⟩
  · intro hsome
    obtain ⟨value, hvalue⟩ := Option.isSome_iff_exists.mp hsome
    have hentry := (store.state.sessions.mem_entries_iff id value).mpr hvalue
    have hmem : value ∈ sup.recoverySessions := hrecords ▸ List.mem_map_of_mem hentry
    obtain ⟨session, hsession⟩ := Board.fromValue_of_recover_loop hboard value hmem
    exact .inr ⟨value, hmem, session, hsession, hidentity id value hentry hsession⟩

namespace Service

variable (codec : Codec)

/-- Apart from deletions half done, the board has exactly the sessions on record; and a restart on a
directory that is as the store has it brings back exactly these. -/
structure Agrees (service : Service) (store : EndpointStore) : Prop where
  stored : ∀ id, id ∉ service.deleting →
    ((store.state.sessions.get? id).isSome ↔ (service.node.board.inner.get? id).isSome)
  reopened : store.InSync codec → ∀ io seen sup board,
    (Supervisor.open codec io store.directory).result = .ok sup →
    Board.recover seen sup.recoverySessions = .ok board →
      ∀ id, id ∉ service.deleting →
        ((board.inner.get? id).isSome ↔ (service.node.board.inner.get? id).isSome)

/-- A list prunes nothing but sessions that are being deleted, and no heartbeat is stored of a
session that is being deleted. -/
def Careful (service : Service) : Turn → Prop
  | .list => ∀ entry ∈ service.node.board.inner.entries, entry.1 ∉ service.deleting →
      entry.2.recovered = true ∨ Instant.elapsed entry.2.seen service.now < 4 * stale
  | .heartbeat session nowMillis io => service.accepts codec session nowMillis io = true →
      (service.node.board.prepared nowMillis session).id ∉ service.deleting
  | _ => True

instance (service : Service) : ∀ turn, Decidable (service.Careful codec turn)
  | .list => inferInstanceAs (Decidable (∀ entry ∈ service.node.board.inner.entries, _ → _ ∨ _))
  | .heartbeat _ _ _ => inferInstanceAs (Decidable (_ → _))
  | .wait _ | .start _ _ | .call _ | .letThrough _ _ | .recordVram _ _ | .collect _ _
  | .release _ _ | .finishDelete _ | .restart _ _ => .isTrue trivial

/-- There is a store; a session that is being deleted is off the record, and any other is on record
exactly if it is on the board. -/
def Matched (service : Service) : Prop :=
  ∃ sessions, service.node.sys.sup.records = some sessions ∧
    (∀ id, id ∉ service.deleting →
      ((sessions.get? id).isSome ↔ (service.node.board.inner.get? id).isSome)) ∧
    ∀ id ∈ service.deleting, sessions.get? id = none

variable {codec} {service : Service}

/-! ## Steps -/

/-- Neither the record nor the ids on the board change. -/
theorem Matched.congr (h : service.Matched) {after : Service}
    (hrecords : after.node.sys.sup.records = service.node.sys.sup.records)
    (hboard : ∀ id, (after.node.board.inner.get? id).isSome =
      (service.node.board.inner.get? id).isSome)
    (hdeleting : after.deleting = service.deleting) : after.Matched := by
  obtain ⟨sessions, hsessions, hagree, hdeleted⟩ := h
  refine ⟨sessions, hrecords.trans hsessions, ?_, hdeleting ▸ hdeleted⟩
  intro id hid
  rw [hboard]
  exact hagree id (hdeleting ▸ hid)

/-- A call other than the two that are about sessions keeps the record. -/
theorem records_call {node : Node} {call : Call} (hforget : ∀ id io, call ≠ .removeSession id io) :
    (node.step codec (.call call)).sys.sup.records = node.sys.sup.records := by
  unfold Node.step
  dsimp only
  split
  · rename_i hallows
    refine (persists_perform codec node.sys call).records_eq fun applied happlied ↦ ?_
    cases commits_of_update happlied with
    | record session io => cases hallows
    | forget id io => exact absurd rfl (hforget id io)
    | retract _ _ | claim _ | renew _ _ | keepLeases _ | observe _ => trivial
  · rfl

theorem matched_removeSession (h : service.Matched) (id : String) (io : CommitIo) :
    (service.step codec (.call (.removeSession id io))).Matched := by
  obtain ⟨sessions, hsessions, hagree, hdeleted⟩ := h
  have hboard : (service.step codec (.call (.removeSession id io))).node.board =
      service.node.board := rfl
  have hsup : (service.step codec (.call (.removeSession id io))).node.sys.sup =
      (service.node.sys.sup.removeSession codec id io).sup := rfl
  rcases records_removeSession codec service.node.sys.sup id io with
    ⟨hok, hrecords⟩ | ⟨⟨e, herror⟩, hrecords⟩
  · have hdeleting : (service.step codec (.call (.removeSession id io))).deleting =
        id :: service.deleting := by
      simp only [step, deletingAfter, hok, Except.isOk, Except.toBool, if_true]
    refine ⟨sessions.erase id, by rw [hsup, hrecords, hsessions]; rfl, ?_, ?_⟩
    · intro other hother
      rw [hdeleting, List.mem_cons, not_or] at hother
      rw [hboard, Ordered.Map.get?_erase, if_neg hother.1]
      exact hagree other hother.2
    · intro other hother
      rw [hdeleting] at hother
      rw [Ordered.Map.get?_erase]
      split
      · rfl
      · rename_i hne
        rcases List.mem_cons.mp hother with heq | hmem
        · exact absurd heq hne
        · exact hdeleted other hmem
  · have hdeleting : (service.step codec (.call (.removeSession id io))).deleting =
        service.deleting := by
      simp only [step, deletingAfter, herror, Except.isOk, Except.toBool, Bool.false_eq_true,
        if_false]
    exact Matched.congr ⟨sessions, hsessions, hagree, hdeleted⟩ (by rw [hsup, hrecords])
      (fun _ ↦ rfl) hdeleting

theorem matched_heartbeat (h : service.Matched) (session : Session) (nowMillis : ℕ)
    (io : CommitIo) (hcareful : service.Careful codec (.heartbeat session nowMillis io)) :
    (service.step codec (.heartbeat session nowMillis io)).Matched := by
  obtain ⟨after, hsup, ⟨hok, hboard, heq⟩ | ⟨⟨e, herror⟩, hboard, heq⟩⟩ :=
    heartbeat_cases codec service session nowMillis io
  · obtain ⟨sessions, hsessions, hagree, hdeleted⟩ := h
    have hid : (service.node.board.prepared nowMillis session).id ∉ service.deleting := by
      refine hcareful ?_
      simp only [accepts, Board.upsertDurable, Session.persist, hok]
      rfl
    rcases records_persistSession codec service.node.sys.sup
        (service.node.board.prepared nowMillis session).record io with
      ⟨-, hrecords⟩ | ⟨⟨e, herror⟩, -⟩
    · rw [heq]
      refine ⟨_, by dsimp only; rw [hsup, hrecords, hsessions]; rfl, fun id hdeleting ↦ ?_,
        fun id hdeleting ↦ ?_⟩
      · dsimp only
        rw [hboard, Board.file, Ordered.Map.get?_insert, Ordered.Map.get?_insert]
        by_cases hsame : id = (service.node.board.prepared nowMillis session).id
        · simp [hsame, Session.record]
        · simpa [Ne.symm hsame, hsame, Session.record] using hagree id hdeleting
      · rw [Ordered.Map.get?_insert, if_neg]
        · exact hdeleted id hdeleting
        · rintro rfl
          exact hid hdeleting
    · cases herror.symm.trans hok
  · rcases records_persistSession codec service.node.sys.sup
        (service.node.board.prepared nowMillis session).record io with
      ⟨hok, -⟩ | ⟨-, hrecords⟩
    · cases herror.symm.trans hok
    · rw [heq]
      exact h.congr (hsup ▸ hrecords) (fun _ ↦ by rw [hboard]) rfl

theorem matched_list (h : service.Matched) (hcareful : service.Careful codec .list) :
    (service.step codec .list).Matched := by
  obtain ⟨sessions, hsessions, hagree, hdeleted⟩ := h
  refine ⟨sessions, hsessions, fun id hid ↦ ?_, hdeleted⟩
  rw [hagree id hid]
  simp only [step, act, Node.step, Board.list, Ordered.Map.get?_retain]
  cases hget : service.node.board.inner.get? id with
  | none => rfl
  | some live =>
    have hentry := (service.node.board.inner.mem_entries_iff id live).mpr hget
    have hkept := hcareful (id, live) hentry hid
    simp [hkept]

theorem matched_finishDelete (h : service.Matched) (id : String) :
    (service.step codec (.finishDelete id)).Matched := by
  simp only [step]
  split
  · rename_i hmem
    obtain ⟨sessions, hsessions, hagree, hdeleted⟩ := h
    refine ⟨sessions, hsessions, fun other hother ↦ ?_, fun other hother ↦
      hdeleted other (List.mem_of_mem_erase hother)⟩
    simp only [act, Node.step, Board.remove, Ordered.Map.get?_erase]
    by_cases hsame : other = id
    · simp [hsame, hdeleted id hmem]
    · rw [if_neg hsame]
      exact hagree other fun hbefore ↦ hother ((List.mem_erase_of_ne hsame).mpr hbefore)
  · exact h

/-- A daemon that has just come up agrees with its store. -/
theorem matched_of_open {io : SupervisorOpenIo} {directory : Directory} {sup : Supervisor}
    (hopen : (Supervisor.open codec io directory).result = .ok sup) {seen : String → Instant}
    {board : Board} (hboard : Board.recover seen sup.recoverySessions = .ok board)
    (hup : service.node = .of sup board) (hdeleting : service.deleting = []) :
    service.Matched := by
  obtain ⟨-, -, read, hread, -⟩ := open_ok codec hopen
  obtain ⟨-, store, hstore, -⟩ := open_state hread hopen
  refine ⟨store.state.sessions, ?_, fun id _ ↦ ?_, by simp [hdeleting]⟩
  · rw [hup]
    simp only [records, Node.of, Sys.fresh, durable, hstore, Option.map_some]
  · rw [hup]
    exact (isSome_recover (orderly_open hopen) hstore hboard id).symm

theorem matched_step (h : service.Matched) (turn : Turn) (hcareful : service.Careful codec turn) :
    (service.step codec turn).Matched := by
  cases turn with
  | wait duration => exact h
  | start req io => exact h.congr (records_start _ req io) (fun _ ↦ rfl) rfl
  | call call =>
    by_cases hforget : ∃ id io, call = .removeSession id io
    · obtain ⟨id, io, rfl⟩ := hforget
      exact matched_removeSession h id io
    · have hother : ∀ id io, call ≠ .removeSession id io := fun id io heq ↦ hforget ⟨id, io, heq⟩
      refine h.congr (records_call hother) (fun id ↦ ?_) ?_
      · rw [step, act, board_call]
      · cases call with
        | removeSession id io => exact absurd rfl (hother id io)
        | _ => rfl
  | letThrough sessionId model =>
    refine h.congr ?_ (fun id ↦ ?_) rfl
    · simp only [step, act, Node.step]
      split <;> rfl
    · simp only [step, act, board_letThrough]
  | heartbeat session nowMillis io => exact matched_heartbeat h session nowMillis io hcareful
  | recordVram id vram =>
    refine h.congr ?_ (fun other ↦ ?_) ?_
    · simp only [step, act, Node.step]
      split <;> rfl
    · have hboard : (service.step codec (.recordVram id vram)).node.board =
          (service.node.board.recordVram id vram service.now).2 := by
        simp only [step, act, Node.step]
        split <;> rfl
      rw [hboard, Board.recordVram]
      cases hget : service.node.board.inner.get? id with
      | none => rfl
      | some live =>
        have hid := service.node.board.filed id live hget
        simp only [Board.file, Ordered.Map.get?_insert, hid]
        split
        · rename_i hsame
          rw [← hsame, hget]
          rfl
        · rfl
    · simp only [step, act]
      split <;> rfl
  | list => exact matched_list h hcareful
  | collect delays took => exact h
  | release sweep io =>
    rcases release_cases codec service sweep io with heq | ⟨next, rest, dropped, -, -, heq⟩
    · rw [heq]
      exact h
    · rw [heq]
      exact h.congr (records_call fun _ _ hcall ↦ by cases hcall)
        (fun _ ↦ by rw [board_call]) rfl
  | finishDelete id => exact matched_finishDelete h id
  | restart io directory =>
    simp only [step]
    split
    · exact h
    · rename_i sup hopen
      split
      · exact h
      · rename_i board hboard
        exact matched_of_open hopen hboard rfl rfl

theorem Matched.agrees (h : service.Matched) :
    ∃ store, service.node.sys.sup.store = some store ∧ service.Agrees codec store := by
  obtain ⟨sessions, hsessions, hagree, -⟩ := h
  unfold records durable at hsessions
  rw [Option.map_map] at hsessions
  obtain ⟨store, hstore, rfl⟩ := Option.map_eq_some_iff.mp hsessions
  refine ⟨store, hstore, hagree, ?_⟩
  intro hsync io seen sup board hopen hboard id hid
  obtain ⟨opened, hopened, -, hsame, -⟩ := (restored_open hsync hopen).durable
  obtain ⟨reopened, hreopened, rfl⟩ := Option.map_eq_some_iff.mp hopened
  rw [isSome_recover (orderly_open hopen) hreopened hboard id, hsame]
  exact hagree id hid

/-- In every run of requests, storage failures and restarts in which no list prunes an entry and no
heartbeat of a session is stored between the two halves of its deletion, the board has exactly the
sessions on record, those that are being deleted apart. -/
theorem board_agrees {io : SupervisorOpenIo} {directory : Directory} {sup : Supervisor}
    (hopen : (Supervisor.open codec io directory).result = .ok sup) {seen : String → Instant}
    {board : Board} (hboard : Board.recover seen sup.recoverySessions = .ok board) (now : Instant)
    (turns : List Turn)
    (hcareful : Run.Meets (step codec) (Careful codec) (of (.of sup board) now) turns) :
    ∀ early, early <+: turns →
      ∃ store, ((of (.of sup board) now).run codec early).node.sys.sup.store = some store ∧
        ((of (.of sup board) now).run codec early).Agrees codec store := by
  intro early hearly
  have hmatched : ((of (.of sup board) now).run codec early).Matched :=
    Run.invariant_reached Matched (fun _ turn h ↦ matched_step h turn)
      (matched_of_open hopen hboard rfl rfl) hcareful hearly
  exact hmatched.agrees

/-- A session reports, is listed as stale after 100 seconds, and reports again. -/
def lateOwner : List Turn :=
  [.heartbeat (.named "owner") 0 (.ok "a"), .wait (.fromSecs 100), .list,
    .heartbeat (.named "owner") 0 (.ok "b")]

theorem board_agrees_lateOwner :
    let after := (of (.of openedEmpty .new) 0).run Node.ownerCodec lateOwner
    after.deleting = [] ∧ (after.node.board.inner.get? "owner").isSome ∧
      ∃ store, after.node.sys.sup.store = some store ∧ after.Agrees Node.ownerCodec store :=
  ⟨by decide +kernel, by decide +kernel,
    @board_agrees Node.ownerCodec (.plain 0) .empty openedEmpty rfl (fun _ ↦ 0) .new rfl 0 _
      (by decide +kernel) _ List.prefix_rfl⟩

/-- A session reports once; six minutes later the board is listed. -/
def prunedOwner : List Turn :=
  [.heartbeat (.named "owner") 0 (.ok "a"), .wait (.fromSecs 360), .list]

/-- The board has dropped the session, and it stays on record. -/
theorem pruned_session_on_record :
    let after := (of (.of openedEmpty .new) 0).run Node.ownerCodec prunedOwner
    after.deleting = [] ∧
      ¬ ∃ store, after.node.sys.sup.store = some store ∧ after.Agrees Node.ownerCodec store := by
  intro after
  refine ⟨by decide +kernel, ?_⟩
  rintro ⟨store, hstore, hagrees⟩
  have hrecord : (after.node.sys.sup.store.map fun store ↦
      (store.state.sessions.get? "owner").isSome) = some true := by decide +kernel
  have hboard : (after.node.board.inner.get? "owner").isSome = false := by decide +kernel
  have hdeleting : "owner" ∉ after.deleting := by decide +kernel
  rw [hstore] at hrecord
  have hagree := (hagrees.stored "owner" hdeleting).mp (Option.some.inj hrecord)
  cases hagree.symm.trans hboard

end Service

end Cameo.Daemon
