import Cameo.Address
import Cameo.Library.Run
import Mathlib.Data.List.Count

/-!
# Connection slots

The listener serves a connection only while it holds a slot.  There is one counter for all
connections and one for each remote address, except that connections over the loopback interface are
not counted for their address.  A connection gives its slot back when it ends, in whatever order
connections end.
-/

namespace Cameo.Gateway

open Library

/-- `MAX_CONNECTIONS`. -/
def maxConnections : ℕ := 64

/-- `MAX_CONNECTIONS_PER_PEER`. -/
def maxConnectionsPerPeer : ℕ := 16

/-- `AtomicUsize::fetch_sub` of one, which wraps around. -/
def fetchSub (count : ℕ) : ℕ := (count + (UInt64.size - 1)) % UInt64.size

/-- `Admission`. -/
structure Admission where
  total : ℕ
  /-- The hash map: an address without an entry has none. -/
  perPeer : IpAddr → Option ℕ

/-- `ConnectionSlot`, with the remote address of its connection, which no code reads. -/
structure ConnectionSlot where
  peer : Option IpAddr
  remote : Option IpAddr

def counted (remote : Option IpAddr) : Option IpAddr := remote.filter fun ip ↦ !ip.isLoopback

namespace Admission

/-- `Admission::default()`. -/
def default : Admission := ⟨0, fun _ ↦ none⟩

/-- `Admission::admit`. -/
def admitPeer (remote : Option IpAddr) (admission : Admission) :
    Option ConnectionSlot × Admission :=
  if admission.total < maxConnections then
    let total := admission.total + 1
    match counted remote with
    | none => (some ⟨none, remote⟩, { admission with total := total })
    | some ip =>
      let count := (admission.perPeer ip).getD 0
      if count ≥ maxConnectionsPerPeer then
        -- `or_insert` has left an entry by now, also where the connection is refused.
        (none, ⟨fetchSub total, Function.update admission.perPeer ip (some count)⟩)
      else
        (some ⟨some ip, remote⟩, ⟨total, Function.update admission.perPeer ip (some (count + 1))⟩)
  else (none, admission)

/-- `ConnectionSlot::drop`. -/
def dropSlot (slot : ConnectionSlot) (admission : Admission) : Admission :=
  let total := fetchSub admission.total
  match slot.peer with
  | none => { admission with total := total }
  | some ip =>
    match admission.perPeer ip with
    | none => { admission with total := total }
    | some count =>
      ⟨total, Function.update admission.perPeer ip
        (if count - 1 = 0 then none else some (count - 1))⟩

/-- A refused connection leaves the counters as they are. -/
theorem admitPeer_refused {remote : Option IpAddr} {admission : Admission}
    (h : (admission.admitPeer remote).1 = none) : (admission.admitPeer remote).2 = admission := by
  unfold admitPeer at *
  split
  · rename_i hroom
    rw [if_pos hroom] at h
    cases hpeer : counted remote with
    | none =>
      rw [hpeer] at h
      cases h
    | some ip =>
      rw [hpeer] at h
      dsimp only at h ⊢
      split
      · rename_i hfull
        -- A full count is there already, so `or_insert` has inserted nothing.
        have hentry : some ((admission.perPeer ip).getD 0) = admission.perPeer ip := by
          cases hcount : admission.perPeer ip with
          | none =>
            rw [hcount] at hfull
            cases hfull
          | some count => rfl
        have htotal : fetchSub (admission.total + 1) = admission.total := by
          simp only [maxConnections] at hroom
          unfold fetchSub UInt64.size
          omega
        rw [htotal, hentry, Function.update_eq_self]
      · rename_i hfew
        rw [if_neg hfew] at h
        cases h
  · rfl

/-- What a connection that gets a slot has found and leaves. -/
theorem admitPeer_granted {remote : Option IpAddr} {admission : Admission} {slot : ConnectionSlot}
    (h : (admission.admitPeer remote).1 = some slot) :
    admission.total < maxConnections ∧ slot = ⟨counted remote, remote⟩ ∧
      (admission.admitPeer remote).2.total = admission.total + 1 ∧
      (∀ ip, counted remote = some ip →
        (admission.perPeer ip).getD 0 < maxConnectionsPerPeer ∧
          (admission.admitPeer remote).2.perPeer =
            Function.update admission.perPeer ip (some ((admission.perPeer ip).getD 0 + 1))) ∧
      (counted remote = none →
        (admission.admitPeer remote).2.perPeer = admission.perPeer) := by
  unfold admitPeer at *
  split at h
  · rename_i hroom
    rw [if_pos hroom]
    cases hpeer : counted remote with
    | none =>
      rw [hpeer] at h
      exact ⟨hroom, (Option.some.inj h).symm, rfl, fun _ hip ↦ (by cases hip), fun _ ↦ rfl⟩
    | some ip =>
      rw [hpeer] at h
      dsimp only at h ⊢
      split at h
      · cases h
      · rename_i hfew
        rw [if_neg hfew]
        refine ⟨hroom, (Option.some.inj h).symm, rfl, fun other hother ↦ ?_, fun hnone ↦ ?_⟩
        · obtain rfl := Option.some.inj hother
          exact ⟨not_le.mp hfew, rfl⟩
        · cases hnone
  · cases h

theorem total_dropSlot (slot : ConnectionSlot) (admission : Admission) :
    (admission.dropSlot slot).total = fetchSub admission.total := by
  unfold dropSlot
  dsimp only
  split
  · rfl
  · split <;> rfl

/-- The counters of other addresses stay as they are. -/
theorem perPeer_dropSlot_of_ne {slot : ConnectionSlot} {ip : IpAddr} (h : slot.peer ≠ some ip)
    (admission : Admission) : (admission.dropSlot slot).perPeer ip = admission.perPeer ip := by
  unfold dropSlot
  dsimp only
  split
  · rfl
  · rename_i other hpeer
    split
    · rfl
    · have hne : ip ≠ other := by
        rintro rfl
        exact h hpeer
      exact Function.update_of_ne hne _ _

/-- The counter of the address of the slot goes down by one, and the entry goes with the last. -/
theorem perPeer_dropSlot_self {slot : ConnectionSlot} {ip : IpAddr} {admission : Admission}
    {rest : ℕ} (hpeer : slot.peer = some ip) (hcount : (admission.perPeer ip).getD 0 = rest + 1) :
    (admission.dropSlot slot).perPeer ip = if rest = 0 then none else some rest := by
  cases hentry : admission.perPeer ip with
  | none =>
    rw [hentry] at hcount
    cases hcount
  | some count =>
    rw [hentry, Option.getD_some] at hcount
    simp only [dropSlot, hpeer, hentry, hcount, Function.update_self, Nat.add_sub_cancel]

end Admission

/-! ## The listener -/

structure Listener where
  admission : Admission
  slots : List ConnectionSlot

/-- A connection comes in, or one of the connections ends. -/
inductive Listener.Event where
  | admitPeer (remote : Option IpAddr)
  | dropSlot (index : ℕ)

namespace Listener

/-- A listener without connections. -/
def start : Listener := ⟨.default, []⟩

def step (listener : Listener) : Event → Listener
  | .admitPeer remote =>
    match listener.admission.admitPeer remote with
    | (some slot, admission) => ⟨admission, slot :: listener.slots⟩
    | (none, admission) => ⟨admission, listener.slots⟩
  | .dropSlot index =>
    match listener.slots[index]? with
    | some slot => ⟨listener.admission.dropSlot slot, listener.slots.eraseIdx index⟩
    | none => listener

/-- How many connections of an address are alive. -/
def live (ip : IpAddr) (slots : List ConnectionSlot) : ℕ :=
  slots.countP fun slot ↦ slot.peer = some ip

/-- The counters count the slots that are alive. -/
structure Counted (listener : Listener) : Prop where
  total : listener.admission.total = listener.slots.length
  room : listener.slots.length ≤ maxConnections
  peer : ∀ ip, (listener.admission.perPeer ip).getD 0 = live ip listener.slots
  peerRoom : ∀ ip, live ip listener.slots ≤ maxConnectionsPerPeer
  positive : ∀ ip, listener.admission.perPeer ip ≠ some 0
  counts : ∀ slot ∈ listener.slots, slot.peer = counted slot.remote

theorem live_cons (ip : IpAddr) (slot : ConnectionSlot) (slots : List ConnectionSlot) :
    live ip (slot :: slots) = live ip slots + if slot.peer = some ip then 1 else 0 := by
  simp [live, List.countP_cons]

/-- A slot that is taken out of the list was counted. -/
theorem live_eraseIdx (ip : IpAddr) {slots : List ConnectionSlot} {index : ℕ}
    {slot : ConnectionSlot} (h : slots[index]? = some slot) :
    live ip slots = live ip (slots.eraseIdx index) + if slot.peer = some ip then 1 else 0 := by
  induction slots generalizing index with
  | nil => cases h
  | cons head rest ih =>
    cases index with
    | zero =>
      obtain rfl : head = slot := Option.some.inj h
      exact live_cons ip head rest
    | succ index =>
      have hrest := ih (show rest[index]? = some slot from h)
      rw [List.eraseIdx_cons_succ, live_cons, live_cons, hrest]
      omega

theorem step_admitPeer_refused {listener : Listener} {remote : Option IpAddr}
    (h : (listener.admission.admitPeer remote).1 = none) :
    listener.step (.admitPeer remote) = listener := by
  have hsame := Admission.admitPeer_refused h
  rw [step, show listener.admission.admitPeer remote = (none, listener.admission) from
    Prod.ext h hsame]

theorem step_admitPeer_granted {listener : Listener} {remote : Option IpAddr}
    {slot : ConnectionSlot} (h : (listener.admission.admitPeer remote).1 = some slot) :
    listener.step (.admitPeer remote) =
      ⟨(listener.admission.admitPeer remote).2, slot :: listener.slots⟩ := by
  rw [step, show listener.admission.admitPeer remote =
    (some slot, (listener.admission.admitPeer remote).2) from Prod.ext h rfl]

theorem counted_start : Counted start where
  total := rfl
  room := Nat.zero_le _
  peer _ := rfl
  peerRoom _ := Nat.zero_le _
  positive _ h := by cases h
  counts _ h := by cases h

theorem counted_admitPeer {listener : Listener} (h : Counted listener) (remote : Option IpAddr) :
    Counted (listener.step (.admitPeer remote)) := by
  cases hresult : (listener.admission.admitPeer remote).1 with
  | none =>
    rw [step_admitPeer_refused hresult]
    exact h
  | some slot =>
    rw [step_admitPeer_granted hresult]
    obtain ⟨hroom, rfl, htotal, hpeer, hloopback⟩ := Admission.admitPeer_granted hresult
    generalize (listener.admission.admitPeer remote).2 = admission at htotal hpeer hloopback
    have hlength : listener.slots.length < maxConnections := h.total ▸ hroom
    -- The counter of an address moves exactly with the slots of that address.
    have hcount (ip : IpAddr) : (admission.perPeer ip).getD 0 =
        live ip listener.slots + if counted remote = some ip then 1 else 0 := by
      rw [← h.peer]
      cases hremote : counted remote with
      | none => simp [hloopback hremote]
      | some other =>
        rw [(hpeer other hremote).2, Function.update_apply]
        by_cases hip : ip = other
        · simp [hip]
        · simp [hip, Ne.symm hip]
    refine ⟨?_, hlength, ?_, ?_, ?_, ?_⟩
    · rw [htotal, h.total, List.length_cons]
    · intro ip
      rw [live_cons]
      exact hcount ip
    · intro ip
      rw [live_cons]
      by_cases hip : counted remote = some ip
      · have hfew := (hpeer ip hip).1
        rw [h.peer] at hfew
        rw [if_pos hip]
        exact hfew
      · rw [if_neg hip]
        exact h.peerRoom ip
    · intro ip hzero
      cases hremote : counted remote with
      | none => exact h.positive ip (hloopback hremote ▸ hzero)
      | some other =>
        rw [(hpeer other hremote).2, Function.update_apply] at hzero
        split at hzero
        · cases hzero
        · exact h.positive ip hzero
    · exact List.forall_mem_cons.mpr ⟨rfl, h.counts⟩

theorem counted_dropSlot {listener : Listener} (h : Counted listener) (index : ℕ) :
    Counted (listener.step (.dropSlot index)) := by
  rw [step]
  cases hslot : listener.slots[index]? with
  | none => exact h
  | some slot =>
    obtain ⟨hindex, -⟩ := List.getElem?_eq_some_iff.mp hslot
    have hlength := List.length_eraseIdx_add_one hindex
    have hroom := h.room
    have hlive (ip : IpAddr) := live_eraseIdx ip hslot
    have htotal : fetchSub listener.admission.total = (listener.slots.eraseIdx index).length := by
      rw [h.total]
      simp only [maxConnections] at hroom
      unfold fetchSub UInt64.size
      omega
    have hpeer (ip : IpAddr) : ((listener.admission.dropSlot slot).perPeer ip).getD 0 =
          live ip (listener.slots.eraseIdx index) ∧
        (listener.admission.dropSlot slot).perPeer ip ≠ some 0 := by
      have hbefore := (h.peer ip).trans (hlive ip)
      by_cases hip : slot.peer = some ip
      · rw [if_pos hip] at hbefore
        rw [Admission.perPeer_dropSlot_self hip hbefore]
        split
        · rename_i hlast
          exact ⟨hlast.symm, by simp⟩
        · rename_i hmore
          exact ⟨rfl, by simpa using hmore⟩
      · rw [if_neg hip] at hbefore
        rw [Admission.perPeer_dropSlot_of_ne hip]
        exact ⟨hbefore, h.positive ip⟩
    refine ⟨?_, ?_, fun ip ↦ (hpeer ip).1, fun ip ↦ ?_, fun ip ↦ (hpeer ip).2, ?_⟩
    · exact (Admission.total_dropSlot slot _).trans htotal
    · dsimp only
      omega
    · have hcap := h.peerRoom ip
      rw [hlive ip] at hcap
      dsimp only
      omega
    · exact fun slot hmem ↦ h.counts slot (List.mem_of_mem_eraseIdx hmem)

theorem counted_run (events : List Event) : Counted (Run.run step start events) := by
  refine Run.invariant_run_of_step Counted (fun listener event h ↦ ?_) events counted_start
  cases event with
  | admitPeer remote => exact counted_admitPeer h remote
  | dropSlot index => exact counted_dropSlot h index

theorem counted_eq_some_iff {remote : Option IpAddr} {ip : IpAddr} (h : ip.isLoopback = false) :
    counted remote = some ip ↔ remote = some ip := by
  rw [counted, Option.filter_eq_some_iff]
  simp [h]

/-- In whatever order connections come and end, the counters are the numbers of live slots, within
their caps, and a refused connection leaves no trace. -/
theorem connection_counts_exact (events : List Event) :
    let listener := Run.run step start events
    listener.admission.total = listener.slots.length ∧
    listener.admission.total ≤ maxConnections ∧
    (∀ ip, ip.isLoopback = false →
      (listener.admission.perPeer ip).getD 0 =
          (listener.slots.countP fun slot ↦ slot.remote = some ip) ∧
        (listener.admission.perPeer ip).getD 0 ≤ maxConnectionsPerPeer) ∧
    (∀ ip, listener.admission.perPeer ip ≠ some 0) ∧
    ∀ remote, (listener.admission.admitPeer remote).1 = none →
      (listener.admission.admitPeer remote).2 = listener.admission := by
  intro listener
  have h : Counted listener := counted_run events
  refine ⟨h.total, h.total ▸ h.room, fun ip hip ↦ ⟨?_, ?_⟩, h.positive,
    fun remote ↦ Admission.admitPeer_refused⟩
  · rw [h.peer, live]
    apply List.countP_congr
    intro slot hslot
    rw [h.counts slot hslot, decide_eq_true_eq, decide_eq_true_eq, counted_eq_some_iff hip]
  · rw [h.peer]
    exact h.peerRoom ip

end Listener

end Cameo.Gateway
