import Cameo.Daemon.Requests

/-!
# The sweep of stale leases

A sweep is to drop the lease of a session only when nothing has been heard of the session for longer
than the stale window.  It judges the sessions when it collects their ids and does not judge them
again when it releases them, so a heartbeat and a claim that land in between are lost.  Sessions
that are not heard of in between are dropped rightly, in every run.
-/

namespace Cameo.Daemon

open Json Library Store Supervisor

/-- When the lease was dropped, every heartbeat of its session was older than the stale window. -/
def Dropped.Overdue (drop : Dropped) : Prop :=
  ∀ beat ∈ drop.beats, stale < Instant.elapsed beat drop.removedAt

instance (drop : Dropped) : Decidable drop.Overdue :=
  inferInstanceAs (Decidable (∀ beat ∈ drop.beats, stale < Instant.elapsed beat drop.removedAt))

namespace Service

def nextCollected (service : Service) (sweep : ℕ) : Option Collected :=
  service.sweeps[sweep]?.bind List.head?

/-- When a sweep releases an id and the lease of its session with it, no heartbeat of the session
was accepted since the sweep has collected it. -/
def Unheard (codec : Codec) (service : Service) : Turn → Prop
  | .release sweep io => ∀ next ∈ service.nextCollected sweep,
      (service.node.sys.sup.leases.get? next.id).isSome →
        ((service.node.step codec (.call (.release next.id io))).sys.sup.leases.get?
          next.id).isNone →
            service.beats next.id = next.beats
  | _ => True

instance (codec : Codec) (service : Service) : ∀ turn, Decidable (service.Unheard codec turn)
  | .release sweep io => inferInstanceAs (Decidable (∀ next ∈ service.nextCollected sweep,
      (service.node.sys.sup.leases.get? next.id).isSome →
        ((service.node.step codec (.call (.release next.id io))).sys.sup.leases.get?
          next.id).isNone →
            service.beats next.id = next.beats))
  | .wait _ | .start _ _ | .call _ | .letThrough _ _ | .heartbeat _ _ _ | .recordVram _ _ | .list
  | .collect _ _ | .finishDelete _ | .restart _ _ => .isTrue trivial

/-- The board knows of every heartbeat, and what is collected or dropped was overdue. -/
structure Timely (service : Service) : Prop where
  past : ∀ id, ∀ beat ∈ service.beats id, beat ≤ service.now
  seen : ∀ id live, service.node.board.inner.get? id = some live → live.recovered = false →
    ∀ beat ∈ service.beats id, beat ≤ live.seen
  collected : ∀ sweep ∈ service.sweeps, ∀ item ∈ sweep, ∀ beat ∈ item.beats,
    stale < Instant.elapsed beat service.now
  dropped : ∀ drop ∈ service.dropped, drop.Overdue

theorem timely_of (node : Node) (now : Instant) : (of node now).Timely :=
  ⟨nofun, fun _ _ _ _ _ hbeat ↦ absurd hbeat List.not_mem_nil, nofun, nofun⟩

variable {codec : Codec} {service : Service}

/-! ## What a step leaves of the board -/

/-- The board loses entries at most. -/
theorem Timely.shrink (h : service.Timely) {node : Node}
    (hboard : ∀ id live, node.board.inner.get? id = some live →
      service.node.board.inner.get? id = some live) :
    { service with node := node }.Timely :=
  ⟨h.past, fun id live hget ↦ h.seen id live (hboard id live hget), h.collected, h.dropped⟩

/-- An entry that was seen just now is filed for a heartbeat. -/
theorem Timely.file (h : service.Timely) (node : Node) (live : Live)
    (hboard : node.board = service.node.board.file live) (hseen : live.seen = service.now) :
    { service with node := node, beats := service.heard live.session.id }.Timely := by
  have hpast : ∀ id, ∀ beat ∈ service.heard live.session.id id, beat ≤ service.now := by
    intro id beat hbeat
    unfold heard at hbeat
    rw [Function.update_apply] at hbeat
    split at hbeat
    · rcases List.mem_cons.mp hbeat with rfl | hbeat
      · exact le_refl _
      · exact h.past _ beat hbeat
    · exact h.past id beat hbeat
  refine ⟨hpast, ?_, h.collected, h.dropped⟩
  intro id other hget hrecovered beat hbeat
  dsimp only at hget hbeat
  rw [hboard, Board.file, Ordered.Map.get?_insert] at hget
  split at hget
  · cases hget
    exact hseen ▸ hpast id beat hbeat
  · rename_i hne
    unfold heard at hbeat
    rw [Function.update_of_ne (Ne.symm hne)] at hbeat
    exact h.seen id other hget hrecovered beat hbeat

/-- Time passes. -/
theorem Timely.wait (h : service.Timely) (duration : Duration) :
    { service with now := service.now + duration }.Timely := by
  refine ⟨fun id beat hbeat ↦ ?_, h.seen, fun sweep hsweep item hitem beat hbeat ↦ ?_, h.dropped⟩
  · exact (h.past id beat hbeat).trans (Nat.le_add_right _ _)
  · refine (h.collected sweep hsweep item hitem beat hbeat).trans_le ?_
    exact Nat.sub_le_sub_right (Nat.le_add_right _ _) _

/-! ## Steps -/

theorem timely_heartbeat (h : service.Timely) (session : Session) (nowMillis : ℕ)
    (io : CommitIo) : (service.step codec (.heartbeat session nowMillis io)).Timely := by
  obtain ⟨after, -, ⟨-, hboard, heq⟩ | ⟨-, hboard, heq⟩⟩ :=
    heartbeat_cases codec service session nowMillis io
  · rw [heq]
    exact h.file _ _ hboard rfl
  · rw [heq]
    refine h.shrink fun id live hget ↦ ?_
    rw [hboard] at hget
    exact hget

theorem timely_recordVram (h : service.Timely) (id : String) (vram : VramCapability) :
    (service.step codec (.recordVram id vram)).Timely := by
  simp only [step, act, Node.step, Board.recordVram]
  cases hget : service.node.board.inner.get? id with
  | none => exact h.shrink fun _ _ hget ↦ hget
  | some live =>
    have hid := service.node.board.filed id live hget
    let recorded : Live :=
      { live with session := { live.session with vram := vram }, seen := service.now }
    have hfile := h.file { service.node with board := service.node.board.file recorded } recorded
      rfl rfl
    rw [show ({ live.session with vram := vram } : Session).id = id from hid] at hfile
    exact hfile

theorem timely_collect (h : service.Timely) (delays : String → Duration) (took : Duration) :
    (service.step codec (.collect delays took)).Timely := by
  have hwait := h.wait took
  refine ⟨hwait.past, hwait.seen, ?_, hwait.dropped⟩
  intro sweep hsweep item hitem beat hbeat
  rcases List.mem_append.mp hsweep with hsweep | hsweep
  · exact hwait.collected sweep hsweep item hitem beat hbeat
  -- the entry was seen after every heartbeat, and already then it was too old
  cases List.mem_singleton.mp hsweep
  obtain ⟨id, hid, rfl⟩ := List.mem_map.mp hitem
  unfold Board.staleIds at hid
  obtain ⟨⟨key, live⟩, hentry, rfl⟩ := List.mem_map.mp hid
  obtain ⟨hmem, hstale⟩ := List.mem_filter.mp hentry
  simp only [Bool.and_eq_true, Bool.not_eq_true', decide_eq_true_eq] at hstale
  have hget := (service.node.board.inner.mem_entries_iff _ _).mp hmem
  have hseen : beat ≤ live.seen := h.seen _ live hget hstale.1 beat hbeat
  have hold := hstale.2
  unfold Instant.elapsed at hold ⊢
  have hclock : service.now + min (delays key) took ≤ service.now + took :=
    Nat.add_le_add_left (min_le_right _ _) _
  exact hold.trans_le (tsub_le_tsub hclock hseen)

theorem timely_release (h : service.Timely) (sweep : ℕ) (io : CommitIo)
    (hunheard : service.Unheard codec (.release sweep io)) :
    (service.step codec (.release sweep io)).Timely := by
  rcases release_cases codec service sweep io with
    heq | ⟨next, rest, dropped, hsweep, hdropped, heq⟩
  · rw [heq]
    exact h
  rw [heq]
  have hmem := List.mem_of_getElem? hsweep
  refine ⟨h.past, fun id live hget ↦ h.seen id live ?_, ?_, ?_⟩
  · rw [← board_call codec service.node (.release next.id io)]
    exact hget
  · intro other hother item hitem
    rcases List.mem_or_eq_of_mem_set hother with hother | rfl
    · exact h.collected other hother item hitem
    · exact h.collected _ hmem item (List.mem_cons_of_mem _ hitem)
  · rcases hdropped with rfl | ⟨hheld, hfree, rfl⟩
    · exact h.dropped
    intro drop hdrop
    rcases List.mem_cons.mp hdrop with rfl | hdrop
    · intro beat hbeat
      dsimp only at hbeat ⊢
      rw [hunheard next (by simp [nextCollected, hsweep]) hheld hfree] at hbeat
      exact h.collected _ hmem next List.mem_cons_self beat hbeat
    · exact h.dropped drop hdrop

theorem recovered_of_recover_loop {seen : String → Instant} {records : List Value}
    {board recovered : Board}
    (h : ∀ id live, board.inner.get? id = some live → live.recovered = true)
    (hloop : Board.recover.loop seen board records = .ok recovered) :
    ∀ id live, recovered.inner.get? id = some live → live.recovered = true := by
  induction records generalizing board with
  | nil =>
    cases hloop
    exact h
  | cons record rest ih =>
    rw [Board.recover.loop] at hloop
    split at hloop
    · cases hloop
    · refine ih (fun id live hget ↦ ?_) hloop
      rw [Board.file, Ordered.Map.get?_insert] at hget
      split at hget
      · cases hget
        rfl
      · exact h id live hget

/-- Nothing has been heard of a session that is recovered. -/
theorem timely_restart (h : service.Timely) (io : SupervisorOpenIo) (directory : Directory) :
    (service.step codec (.restart io directory)).Timely := by
  simp only [step]
  split
  · exact h
  · split
    · exact h
    · rename_i board hboard
      refine ⟨h.past, fun id live hget hrecovered ↦ ?_,
        fun _ hsweep ↦ absurd hsweep List.not_mem_nil, h.dropped⟩
      have hstart : ∀ id live, Board.new.inner.get? id = some live → live.recovered = true :=
        fun _ _ hget ↦ by cases hget
      exact absurd (recovered_of_recover_loop hstart hboard id live hget) (by simp [hrecovered])

theorem timely_step (h : service.Timely) (turn : Turn) (hunheard : service.Unheard codec turn) :
    (service.step codec turn).Timely := by
  cases turn with
  | wait duration => exact h.wait duration
  | start req io => exact h.shrink fun _ _ hget ↦ hget
  | call call =>
    refine ⟨h.past, fun id live hget ↦ h.seen id live ?_, h.collected, h.dropped⟩
    rw [← board_call codec service.node call]
    exact hget
  | letThrough sessionId model =>
    refine h.shrink fun id live hget ↦ ?_
    rw [board_letThrough] at hget
    exact hget
  | heartbeat session nowMillis io => exact timely_heartbeat h session nowMillis io
  | recordVram id vram => exact timely_recordVram h id vram
  | list =>
    refine h.shrink fun id live hget ↦ ?_
    simp only [Node.step, Board.list, Ordered.Map.get?_retain] at hget
    exact (Option.filter_eq_some_iff.mp hget).1
  | collect delays took => exact timely_collect h delays took
  | release sweep io => exact timely_release h sweep io hunheard
  | finishDelete id =>
    simp only [step]
    split
    · refine ⟨h.past, fun other live hget ↦ h.seen other live ?_, h.collected, h.dropped⟩
      simp only [act, Node.step, Board.remove, Ordered.Map.get?_erase] at hget
      split at hget
      · cases hget
      · exact hget
    · exact h
  | restart io directory => exact timely_restart h io directory

/-- In every run in which no session is heard of between the two halves of a sweep that takes its
lease, a sweep drops a lease only if its session has sent no heartbeat for longer than the stale
window. -/
theorem sweep_drops_overdue (node : Node) (now : Instant) (turns : List Turn)
    (hunheard : Run.Meets (step codec) (Unheard codec) (of node now) turns) :
    ∀ early, early <+: turns → ∀ drop ∈ ((of node now).run codec early).dropped,
      drop.Overdue := by
  intro early hearly
  have htimely := Run.invariant_reached Timely (fun _ turn h ↦ timely_step h turn)
    (timely_of node now) hunheard hearly
  exact htimely.dropped

def ofLabel : Label → Turn
  | .start req io => .start req io
  | .call call => .call call

/-- A session claims a model, is not heard of for 91 seconds, and is collected by a sweep. -/
def silentOwner : List Turn :=
  .heartbeat (.named "owner") 0 (.ok "a") ::
    (.start (.simple "alpha" 8080 8 16 true) (.plain 0 ⟨101, 1⟩) ::
      healthyPass 1000000000).map ofLabel ++
    [.letThrough "owner" "alpha", .call (.lease "owner" "alpha" (.plain 1000000000)),
      .wait (.fromSecs 91), .collect (fun _ ↦ 0) 0]

theorem sweep_drops_overdue_silentOwner :
    let turns := silentOwner ++ [.release 0 (.ok "b")]
    ((of (.of .default .new) 0).run .constant turns).dropped.map Dropped.sessionId = ["owner"] ∧
      ∀ drop ∈ ((of (.of .default .new) 0).run .constant turns).dropped, drop.Overdue :=
  ⟨by decide +kernel, sweep_drops_overdue (.of .default .new) 0 _ (by decide +kernel) _
    List.prefix_rfl⟩

/-- The session is heard of again before the sweep releases its id, and loses its lease. -/
theorem sweep_drops_heard :
    let turns := silentOwner ++ [.heartbeat (.named "owner") 0 (.ok "c"), .release 0 (.ok "b")]
    ¬ ∀ drop ∈ ((of (.of .default .new) 0).run .constant turns).dropped, drop.Overdue := by
  decide +kernel

end Service

end Cameo.Daemon
