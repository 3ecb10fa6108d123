import Cameo.Daemon.Sessions
import Cameo.Supervisor.Reopening
import Cameo.Text
import Mathlib.Data.Nat.Log

/-!
# What the daemon commits can be restored

The daemon over one life: the supervisor with its maintenance thread, and the session board.  Two
operations take names from outside: a claim, and the record of a session.  The handlers let a claim
through only for a live session of the board and a model that is not blank, and a session is
recorded by an upsert only, which gives it an id.  A handler may claim long after its check, so the
claims let through stay on a list.

`committed` is a history variable: the store right after each commit that has succeeded.
-/

namespace Cameo.Supervisor

open Json Library Store

/-- `Supervisor::recovery_sessions`. -/
def recoverySessions (sup : Supervisor) : List Value :=
  match sup.store with
  | none => []
  | some store => store.state.sessions.entries.map Prod.snd

def NamedEndpoints (map : EndpointMap) : Prop := ∀ endpoint ∈ map.entries, endpoint.id ≠ ""

theorem endpointId_ne_empty (model : String) (port : ℕ) : endpointId model port ≠ "" := by
  unfold endpointId
  intro h
  obtain ⟨hslug, -⟩ := String.append_eq_empty_iff.mp h
  obtain ⟨-, hdash⟩ := String.append_eq_empty_iff.mp hslug
  exact absurd hdash (by decide)

/-- A start tracks no endpoint without an id. -/
theorem namedEndpoints_start (codec : Codec) (req : StartRequest) (io : StartIo)
    {sup : Supervisor} (h : NamedEndpoints sup.endpoints) :
    NamedEndpoints (sup.start codec req io).sup.endpoints := by
  intro endpoint hmem
  rcases mem_start codec hmem with ⟨old, hold, hevolved⟩ | ⟨hevolved, -⟩
  · rw [hevolved.id]
    exact h old hold
  · rw [hevolved.id]
    exact endpointId_ne_empty _ _

theorem namedEndpoints_perform (codec : Codec) {sys : Sys} (call : Call)
    (h : NamedEndpoints sys.sup.endpoints) :
    NamedEndpoints (call.perform codec sys).sup.endpoints := by
  intro endpoint hmem
  obtain ⟨old, hold, hkept⟩ := kept_perform codec sys call hmem
  rw [hkept.id]
  exact h old hold

/-- A claim by a named session on a named model grants a proper lease. -/
theorem proper_grantedLease {sessionId model : String} {io : LeaseIo} {map : EndpointMap}
    {endpoint : Endpoint} (hsession : sessionId ≠ "") (hmodel : model ≠ "")
    (h : NamedEndpoints map)
    (hfound : (visit (fun _ ↦ true) (fun endpoint ↦ endpoint.model = model && endpoint.isReady)
      io.refresh map).found = some endpoint) :
    (grantedLease sessionId model endpoint.id io).Proper := by
  obtain ⟨-, -, old, hold, -, heq⟩ := Keyed.walk_found _ _ _ hfound
  have hid : endpoint.id = old.id := by rw [heq, Endpoint.id_refresh]
  exact ⟨hsession, hmodel, hid ▸ h old hold, saturatingAdd_ttl_ne_zero _⟩

end Cameo.Supervisor

namespace Cameo.Daemon

open Json Library Store Supervisor

/-- The daemon's shared state, the claims its handlers have let through, as session and model, and
the store after each successful commit. -/
structure Node where
  sys : Sys
  board : Board
  admitted : List (String × String)
  committed : List EndpointStore

/-- A step of the daemon; looking something up on the board is none. -/
inductive Action where
  | start (req : StartRequest) (io : StartIo)
  | call (call : Call)
  /-- A handler lets a claim through. -/
  | letThrough (sessionId model : String) (now : Instant)
  | upsert (session : Session) (nowMillis : ℕ) (seen : Instant) (io : CommitIo)
  | remove (id : String)
  | recordVram (id : String) (vram : VramCapability) (seen : Instant)
  | list (now : Instant)

namespace Node

/-- The daemon after its supervisor was opened and its board recovered. -/
def of (sup : Supervisor) (board : Board) : Node := ⟨.fresh sup, board, [], []⟩

/-- The calls the handlers and the maintenance thread make: claims that were let through, and all
others but the record of a session. -/
def allows (node : Node) : Call → Bool
  | .lease sessionId model _ => (sessionId, model) ∈ node.admitted
  | .persistSession _ _ => false
  | _ => true

variable (codec : Codec)

def step (node : Node) : Action → Node
  | .start req io =>
    let middle := retracted codec node.sys.sup req io
    let after := node.sys.step codec (.start req io)
    { node with
      sys := after
      committed := node.committed ++ (acknowledged node.sys.sup middle).toList ++
        (acknowledged middle after.sup).toList }
  | .call call =>
    if node.allows call then
      let after := call.perform codec node.sys
      { node with
        sys := after
        committed := node.committed ++ (acknowledged node.sys.sup after.sup).toList }
    else node
  | .letThrough sessionId model now =>
    if node.board.contains sessionId now && !isBlank model then
      { node with admitted := (sessionId, model) :: node.admitted }
    else node
  | .upsert session nowMillis seen io =>
    let (_, board, sup) := node.board.upsertDurable nowMillis seen session
      (Session.persist codec io) node.sys.sup
    { node with
      sys := { node.sys with sup := sup }
      board := board
      committed := node.committed ++ (acknowledged node.sys.sup sup).toList }
  | .remove id => { node with board := (node.board.remove id).2 }
  | .recordVram id vram seen => { node with board := (node.board.recordVram id vram seen).2 }
  | .list now => { node with board := (node.board.list now).2 }

/-- The daemon after a list of steps. -/
def run (node : Node) (actions : List Action) : Node := Run.run (step codec) node actions

/-- Everything that can get into the durable state is named. -/
structure Sound (node : Node) : Prop where
  board : ∀ id live, node.board.inner.get? id = some live → id ≠ ""
  admitted : ∀ claim ∈ node.admitted, claim.1 ≠ "" ∧ claim.2 ≠ ""
  endpoints : NamedEndpoints node.sys.sup.endpoints
  orderly : Orderly node.sys.sup
  committed : ∀ store ∈ node.committed,
    store.directory.Committed codec store.generation store.state ∧ Restorable store.state

end Node

/-! ## The board -/

namespace Board

variable {board : Board}

theorem prepared_id_ne_empty (nowMillis : ℕ) (session : Session) :
    (board.prepared nowMillis session).id ≠ "" := by
  unfold prepared
  dsimp only
  split
  · intro h
    obtain ⟨hletter, -⟩ := String.append_eq_empty_iff.mp h
    exact absurd hletter (by decide)
  · assumption

/-- A board with named entries gets another one. -/
theorem named_file (h : ∀ id live, board.inner.get? id = some live → id ≠ "") {live : Live}
    (hlive : live.session.id ≠ "") :
    ∀ id other, (board.file live).inner.get? id = some other → id ≠ "" := by
  intro id other hget
  rw [file, Ordered.Map.get?_insert] at hget
  split at hget
  · rename_i hid
    exact hid ▸ hlive
  · exact h id other hget

theorem named_recover_loop {seen : String → Instant} {records : List Value} {recovered : Board}
    (h : ∀ id live, board.inner.get? id = some live → id ≠ "")
    (hrecords : ∀ record ∈ records, ∀ session, Session.fromValue record = some session →
      session.id ≠ "")
    (hloop : recover.loop seen board records = .ok recovered) :
    ∀ id live, recovered.inner.get? id = some live → id ≠ "" := by
  induction records generalizing board with
  | nil =>
    cases hloop
    exact h
  | cons record rest ih =>
    rw [recover.loop] at hloop
    split at hloop
    · cases hloop
    · rename_i session hsession
      have hid := hrecords record List.mem_cons_self session hsession
      exact ih (named_file h hid) (fun other hmem ↦ hrecords other (List.mem_cons_of_mem _ hmem))
        hloop

theorem isSome_of_contains {id : String} {now : Instant} (h : board.contains id now = true) :
    ∃ live, board.inner.get? id = some live := by
  unfold contains at h
  cases hget : board.inner.get? id with
  | none => rw [hget] at h; cases h
  | some live => exact ⟨live, rfl⟩

end Board

theorem id_of_fromValue {record : Value} {session : Session}
    (h : Session.fromValue record = some session) :
    (record.index "id").asStr = some session.id := by
  obtain ⟨id, hid, h⟩ := Option.bind_eq_some_iff.mp h
  -- the other fields have no say in the id
  iterate 16 obtain ⟨_, -, h⟩ := Option.bind_eq_some_iff.mp h
  cases h
  rw [asStr_index]
  exact hid

/-- The board that a daemon recovers has named entries. -/
theorem named_recover {sup : Supervisor} (h : Orderly sup) {seen : String → Instant}
    {board : Board} (hboard : Board.recover seen sup.recoverySessions = .ok board) :
    ∀ id live, board.inner.get? id = some live → id ≠ "" := by
  refine Board.named_recover_loop (fun id live hget ↦ absurd hget (by simp [Board.new])) ?_ hboard
  intro record hmem session hsession
  unfold recoverySessions at hmem
  split at hmem
  · exact absurd hmem List.not_mem_nil
  · rename_i store hstore
    obtain ⟨⟨key, value⟩, hentry, rfl⟩ := List.mem_map.mp hmem
    have hidentity := (h.store store hstore).2.sessions key value
      ((store.state.sessions.mem_entries_iff key value).mp hentry)
    have hid := id_of_fromValue hsession
    simp only [sessionIdentityOk, Bool.and_eq_true, decide_eq_true_eq] at hidentity
    obtain ⟨hkey, hindex⟩ := hidentity
    cases hindex.symm.trans hid
    exact hkey

/-! ## Steps -/

namespace Node

variable {codec : Codec} {node : Node}

/-- The updates of the calls that are made are named. -/
theorem named_of_allows (h : node.Sound codec) {call : Call} (hallows : node.allows call)
    {update : Update} (hupdate : call.update node.sys = some update) : update.Named := by
  cases commits_of_update hupdate with
  | claim hfound =>
    have hclaim := h.admitted _ (of_decide_eq_true hallows)
    exact proper_grantedLease hclaim.1 hclaim.2 h.endpoints hfound
  | record session io => cases hallows
  | retract _ _ => trivial
  | renew _ _ => trivial
  | keepLeases _ => trivial
  | forget _ _ => trivial
  | observe _ => trivial

/-- What holds of the committed stores so far holds of one more. -/
theorem committed_append {stores : List EndpointStore} {before after : Supervisor}
    {update : Option Update}
    (h : ∀ store ∈ stores,
      store.directory.Committed codec store.generation store.state ∧ Restorable store.state)
    (hpersists : Persists codec before after update) (hbefore : Orderly before)
    (hnamed : ∀ applied, update = some applied → applied.Named) :
    ∀ store ∈ stores ++ (acknowledged before after).toList,
      store.directory.Committed codec store.generation store.state ∧ Restorable store.state := by
  intro store hmem
  rcases List.mem_append.mp hmem with hmem | hmem
  · exact h store hmem
  · exact hpersists.committed_of_acknowledged hbefore hnamed (Option.mem_toList.mp hmem)

theorem sound_start (h : node.Sound codec) (req : StartRequest) (io : StartIo) :
    (node.step codec (.start req io)).Sound codec := by
  obtain ⟨early, late, hearly, hlate, hretraction, haddition⟩ :=
    persists_retracted codec node.sys.sup req io
  have hnamedEarly (applied : Update) (happlied : early = some applied) : applied.Named := by
    obtain ⟨victims, rfl⟩ := hretraction applied happlied
    trivial
  have hnamedLate (applied : Update) (happlied : late = some applied) : applied.Named := by
    rw [haddition applied happlied]
    trivial
  have hmiddle := hearly.orderly h.orderly hnamedEarly
  exact ⟨h.board, h.admitted, namedEndpoints_start codec req io h.endpoints,
    hlate.orderly hmiddle hnamedLate,
    committed_append (committed_append h.committed hearly h.orderly hnamedEarly) hlate hmiddle
      hnamedLate⟩

theorem sound_call (h : node.Sound codec) (call : Call) :
    (node.step codec (.call call)).Sound codec := by
  unfold step
  dsimp only
  split
  · rename_i hallows
    have hpersists := persists_perform codec node.sys call
    have hnamed (applied : Update) (happlied : call.update node.sys = some applied) :
        applied.Named := named_of_allows h hallows happlied
    exact ⟨h.board, h.admitted, namedEndpoints_perform codec call h.endpoints,
      hpersists.orderly h.orderly hnamed, committed_append h.committed hpersists h.orderly hnamed⟩
  · exact h

theorem sound_letThrough (h : node.Sound codec) (sessionId model : String) (now : Instant) :
    (node.step codec (.letThrough sessionId model now)).Sound codec := by
  unfold step
  dsimp only
  split
  · rename_i hchecked
    obtain ⟨hlive, hmodel⟩ := Bool.and_eq_true_iff.mp hchecked
    obtain ⟨live, hget⟩ := Board.isSome_of_contains hlive
    refine ⟨h.board, ?_, h.endpoints, h.orderly, h.committed⟩
    intro claim hmem
    rcases List.mem_cons.mp hmem with rfl | hmem
    · refine ⟨h.board sessionId live hget, ?_⟩
      rintro rfl
      cases hmodel
    · exact h.admitted claim hmem
  · exact h

theorem sound_upsert (h : node.Sound codec) (session : Session) (nowMillis : ℕ) (seen : Instant)
    (io : CommitIo) : (node.step codec (.upsert session nowMillis seen io)).Sound codec := by
  have hid := node.board.prepared_id_ne_empty nowMillis session
  have hpersists := persists_persistSession codec node.sys.sup
    (node.board.prepared nowMillis session).record io
  have hnamed (applied : Update)
      (happlied : some (Update.record (node.board.prepared nowMillis session).record) =
        some applied) : applied.Named := by
    cases happlied
    exact hid
  have horderly := hpersists.orderly h.orderly hnamed
  have hcommitted := committed_append h.committed hpersists h.orderly hnamed
  simp only [step, Board.upsertDurable, Session.persist]
  cases hresult : (node.sys.sup.persistSession codec
      (node.board.prepared nowMillis session).record io).result with
  | error e => exact ⟨h.board, h.admitted, h.endpoints, horderly, hcommitted⟩
  | ok _ =>
    exact ⟨Board.named_file h.board hid, h.admitted, h.endpoints, horderly, hcommitted⟩

theorem sound_step (h : node.Sound codec) (action : Action) :
    (node.step codec action).Sound codec := by
  cases action with
  | start req io => exact sound_start h req io
  | call call => exact sound_call h call
  | letThrough sessionId model now => exact sound_letThrough h sessionId model now
  | upsert session nowMillis seen io => exact sound_upsert h session nowMillis seen io
  | remove id =>
    refine ⟨fun other live hget ↦ ?_, h.admitted, h.endpoints, h.orderly, h.committed⟩
    simp only [step, Board.remove, Ordered.Map.get?_erase] at hget
    split at hget
    · cases hget
    · exact h.board other live hget
  | recordVram id vram seen =>
    simp only [step, Board.recordVram]
    split
    · exact h
    · rename_i live hget
      refine ⟨Board.named_file h.board ?_, h.admitted, h.endpoints, h.orderly, h.committed⟩
      exact (node.board.filed id live hget).symm ▸ h.board id live hget
  | list now =>
    refine ⟨fun other live hget ↦ ?_, h.admitted, h.endpoints, h.orderly, h.committed⟩
    simp only [step, Board.list, Ordered.Map.get?_retain] at hget
    exact h.board other live (Option.filter_eq_some_iff.mp hget).1

theorem sound_of {io : SupervisorOpenIo} {directory : Directory} {sup : Supervisor}
    (hopen : (Supervisor.open codec io directory).result = .ok sup) {seen : String → Instant}
    {board : Board} (hboard : Board.recover seen sup.recoverySessions = .ok board) :
    (of sup board).Sound codec := by
  have horderly := orderly_open hopen
  refine ⟨named_recover horderly hboard, nofun, ?_, horderly, nofun⟩
  have hendpoints : sup.endpoints = .empty := (open_ok codec hopen).1
  intro endpoint hmem
  rw [show (of sup board).sys.sup.endpoints = .empty from hendpoints] at hmem
  exact absurd hmem List.not_mem_nil

/-- In every run, what a successful commit has written is read back exactly; it is restored by every
opening that succeeds, and with working calls every opening does, unless the clock has been set back
and the moved deadlines cannot be committed; and the same holds of the directory that a backup is
restored into. -/
theorem committed_reopens (hgrows : codec.Grows) {io : SupervisorOpenIo} {directory : Directory}
    {sup : Supervisor} (hopen : (Supervisor.open codec io directory).result = .ok sup)
    {seen : String → Instant} {board : Board}
    (hboard : Board.recover seen sup.recoverySessions = .ok board) (actions : List Action) :
    ∀ store ∈ ((of sup board).run codec actions).committed,
      Reopens codec store.directory store.generation store.state ∧
        ∃ file, EndpointStore.backup codec .ok store.directory = (.ok (), some file) ∧
          ∀ suffix, ∃ restored,
            EndpointStore.restore codec (.ok suffix) file = (.ok (), some restored) ∧
              Reopens codec restored 1 store.state := by
  have hsound : ((of sup board).run codec actions).Sound codec :=
    Run.invariant_run_of_step (Sound codec) (fun _ action h ↦ sound_step h action) actions
      (sound_of hopen hboard)
  intro store hmem
  obtain ⟨hcommitted, hrestorable⟩ := hsound.committed store hmem
  refine ⟨reopens_of_committed hcommitted hrestorable, _,
    hcommitted.backup hrestorable.readable, fun suffix ↦ ?_⟩
  obtain ⟨restored, hrestore, hagain⟩ := hcommitted.restore hgrows hrestorable.readable suffix
  exact ⟨restored, hrestore, reopens_of_committed hagain hrestorable⟩

/-- A session reports for the first time. -/
def upsertOwner : List Action := [.upsert (.named "owner") 0 0 (.ok "a")]

/-- The digest of the state committed here, and the length of its snapshots. -/
def ownerCodec : Codec where
  digest _ := "b9e7e097f4e1ed9bec03842e733759b0db08ae96d07f0d5b1c0943f6f67dad8f"
  size snapshot := 226 + Nat.log 10 snapshot.generation

theorem grows_ownerCodec : ownerCodec.Grows :=
  fun _ _ _ _ _ hle ↦ Nat.add_le_add_left (Nat.log_mono_right hle) 226

theorem committed_reopens_upsertOwner :
    let node := (of openedEmpty .new).run ownerCodec upsertOwner
    ∃ store ∈ node.committed, (store.state.sessions.get? "owner").isSome ∧
      (∃ sup, (Supervisor.open ownerCodec (.plain 0) store.directory).result = .ok sup ∧
        Restored store.state sup) ∧
      ∃ file restored, EndpointStore.backup ownerCodec .ok store.directory = (.ok (), some file) ∧
        EndpointStore.restore ownerCodec (.ok "b") file = (.ok (), some restored) ∧
        EndpointStore.open ownerCodec .ok restored =
          .ok ⟨restored, 1, store.state, [restored]⟩ := by
  intro node
  have hopen : (Supervisor.open ownerCodec (.plain 0) .empty).result = .ok openedEmpty := rfl
  have hboard : Board.recover (fun _ ↦ 0) openedEmpty.recoverySessions = .ok .new := rfl
  have hlength : node.committed.length = 1 := by decide +kernel
  have hfacts : node.committed.all fun store ↦ (store.state.sessions.get? "owner").isSome &&
      store.state.leases.entries.isEmpty &&
      (store.directory.get? (.pending "05")).isNone := by decide +kernel
  obtain ⟨store, hstores⟩ := List.length_eq_one_iff.mp hlength
  have hmem : store ∈ node.committed := hstores ▸ List.mem_singleton.mpr rfl
  have hfact := List.all_eq_true.mp hfacts store hmem
  simp only [Bool.and_eq_true, List.isEmpty_iff, Option.isNone_iff_eq_none] at hfact
  obtain ⟨⟨hsession, hleases⟩, hpending⟩ := hfact
  obtain ⟨hreopens, file, hbackup, hrestore⟩ :=
    committed_reopens grows_ownerCodec hopen hboard upsertOwner store hmem
  obtain ⟨restored, hrestored, hagain⟩ := hrestore "b"
  have hforward : ¬ SetBack (epochSeconds 0) store.state := by
    rintro ⟨id, value, _, hget, -⟩
    have hentry := (store.state.leases.mem_entries_iff id value).mpr hget
    rw [hleases] at hentry
    exact absurd hentry List.not_mem_nil
  obtain ⟨sup, hsup⟩ := (hreopens.opens 0 (fun _ ↦ 0) "05" hpending).mpr fun h ↦ absurd h hforward
  exact ⟨store, hmem, hsession, ⟨sup, hsup, hreopens.restores _ sup hsup⟩, file, restored, hbackup,
    hrestored, hagain.reads⟩

/-- A lease that ends 1000090 seconds after the epoch. -/
def ownerLease : Lease := ⟨"owner", "alpha", "alpha-8080", false, 1000090, none⟩

/-- A directory at the last generation but one, with a lease. -/
def lastButOne : Directory :=
  (Keyed.Table.empty : Directory).insert (.generation (u64Max - 1), .snapshot ⟨3, u64Max - 1,
    "023387bd07c2466d0c310329a299e58fdf7236cc8c7f0bfe5e796913a27eefe8",
    ⟨.empty, Ordered.Map.empty.insert "owner" ownerLease.toValue, .empty⟩⟩)

/-- The digests of the state in this directory and of the one with a session, and the lengths of
their snapshots. -/
def lastCodec : Codec where
  digest state :=
    if state.sessions.size = 0 then
      "023387bd07c2466d0c310329a299e58fdf7236cc8c7f0bfe5e796913a27eefe8"
    else "396ebbc878a3118f1fdf53dc87d101e56ee738cde9b4da354c1c184621d0f735"
  size snapshot := if snapshot.state.sessions.size = 0 then 254 else 351

/-- The errors of reopening the directory after each commit of a run, if there is one. -/
def reopenings (codec : Codec) (first second : SupervisorOpenIo) (directory : Directory)
    (actions : List Action) : List (Option String) :=
  match (Supervisor.open codec first directory).result with
  | .error _ => []
  | .ok sup =>
    match Board.recover first.instants sup.recoverySessions with
    | .error _ => []
    | .ok board => ((of sup board).run codec actions).committed.map fun store ↦
      match (Supervisor.open codec second store.directory).result with
      | .ok _ => none
      | .error e => some e

/-- The commit of a session under the last generation succeeds.  When the clock is set back by a
second, the directory cannot be opened any more. -/
theorem last_generation_not_reopened :
    ∃ sup board store,
      (Supervisor.open lastCodec (.plain 1000000000000000) lastButOne).result = .ok sup ∧
      Board.recover (fun _ ↦ 0) sup.recoverySessions = .ok board ∧
      store ∈ ((of sup board).run lastCodec upsertOwner).committed ∧
      (Supervisor.open lastCodec (.plain 999999000000000) store.directory).result =
        .error "endpoint generation exhausted" := by
  have h : reopenings lastCodec (.plain 1000000000000000) (.plain 999999000000000) lastButOne
      upsertOwner = [some "endpoint generation exhausted"] := by decide +kernel
  unfold reopenings at h
  split at h
  · cases h
  rename_i sup hsup
  split at h
  · cases h
  rename_i board hboard
  obtain ⟨store, hstore, herror⟩ := List.map_eq_singleton_iff.mp h
  refine ⟨sup, board, store, hsup, hboard, hstore ▸ List.mem_singleton.mpr rfl, ?_⟩
  split at herror
  · cases herror
  · rename_i e hresult
    cases herror
    exact hresult

end Node

end Cameo.Daemon
