import Mathlib.Data.List.Perm.Basic
import Mathlib.Data.Set.Function
import Cameo.Address
import Cameo.Hub.Registration
import Cameo.Library.Run

/-!
# Pairing codes

One-time codes with which an operator lets a device enrol.  The hub keeps the digests of the codes
it has issued, with their labels and expiries; every operation first drops what has expired, and a
code that is consumed is removed.  The ledger of a run records what has been issued and redeemed,
and from it follows that every code is redeemed at most once.
-/

namespace Cameo.Hub

open Library

/-- `PAIRING_TTL`. -/
def pairingTtl : Duration := .fromSecs (10 * 60)

/-- `MAX_PENDING_PAIRINGS`. -/
def maxPendingPairings : ℕ := 64

/-- `MAX_PAIRING_LABEL_BYTES`. -/
def maxPairingLabelBytes : ℕ := 128

/-- `PairingOffer`. -/
structure PairingOffer where
  code : String
  expiresInSeconds : ℕ

/-- `PendingPairing`. -/
structure PendingPairing where
  digest : Digest
  label : String
  expires : Instant

/-- `PairingStore`. -/
structure PairingStore where
  pending : List PendingPairing

/-- Thirty-two random bytes of the operating system, if it has any. -/
abbrev Randomness := Option (Vector UInt8 32)

/-- A byte as two hexadecimal digits in lower case. -/
def hexOctet (byte : UInt8) : List Char :=
  [Nat.digitChar (byte.toNat / 16), Nat.digitChar (byte.toNat % 16)]

def secretOf (random : Vector UInt8 32) : String :=
  String.ofList (random.toList.flatMap hexOctet)

/-- `random_secret`. -/
def randomSecret (random : Randomness) : Except String String :=
  match random with
  | none => .error "operating system randomness unavailable"
  | some random => .ok (secretOf random)

/-- The check of a presented code: sixty-four hexadecimal digits. -/
def isPairingCode (code : String) : Bool :=
  code.utf8ByteSize = 64 && code.toList.all fun c ↦ (digitOf 16 c).isSome

namespace PairingStore

/-- `PairingStore::new`. -/
def new : PairingStore := ⟨[]⟩

def unexpired (store : PairingStore) (now : Instant) : List PendingPairing :=
  store.pending.filter fun offer ↦ now < offer.expires

variable (hash : String → Digest)

/-- `PairingStore::begin_at`, given `hash_secret`. -/
def beginAt (store : PairingStore) (label : String) (random : Randomness) (now : Instant) :
    Except String PairingOffer × PairingStore :=
  let label := trim label
  if label = "" ∨ label.utf8ByteSize > maxPairingLabelBytes ∨ label.toList.any isControl then
    (.error ("pairing label must be 1..=" ++ toString maxPairingLabelBytes ++
      " bytes with no control characters"), store)
  else
    match randomSecret random with
    | .error e => (.error e, store)
    | .ok code =>
      let pending := store.unexpired now
      if pending.length ≥ maxPendingPairings then
        (.error "too many pending pairings; wait for one to expire", ⟨pending⟩)
      else
        (.ok ⟨code, pairingTtl.asSecs⟩, ⟨pending ++ [⟨hash code, label, now + pairingTtl⟩]⟩)

/-- `PairingStore::is_live`, at the time it reads. -/
def isLive (store : PairingStore) (code : String) (now : Instant) : Bool × PairingStore :=
  if !isPairingCode code then (false, store)
  else
    let pending := store.unexpired now
    (pending.any fun offer ↦ ctDigestEq offer.digest (hash (toAsciiLowercase code)), ⟨pending⟩)

def lastMatch (pending : List PendingPairing) (wanted : Digest) : Option ℕ :=
  pending.zipIdx.foldl
    (fun found entry ↦ if ctDigestEq entry.1.digest wanted then some entry.2 else found) none

/-- `PairingStore::consume_at`. -/
def consumeAt (store : PairingStore) (code : String) (now : Instant) :
    Except String String × PairingStore :=
  if !isPairingCode code then (.error "invalid or expired pairing code", store)
  else
    let pending := store.unexpired now
    match lastMatch pending (hash (toAsciiLowercase code)) with
    | none => (.error "invalid or expired pairing code", ⟨pending⟩)
    | some index =>
      match pending[index]? with
      | some offer => (.ok offer.label, ⟨pending.eraseIdx index⟩)
      -- `Vec::remove` of a place that was found in the list.
      | none => (.error "invalid or expired pairing code", ⟨pending⟩)

/-! ### What each operation does -/

variable {hash} {store store' : PairingStore} {label code : String} {random : Randomness}
  {now : Instant}

theorem unexpired_sublist (store : PairingStore) (now : Instant) :
    (store.unexpired now).Sublist store.pending := List.filter_sublist

theorem mem_unexpired {offer : PendingPairing} :
    offer ∈ store.unexpired now ↔ offer ∈ store.pending ∧ now < offer.expires := by
  simp [unexpired]

theorem beginAt_eq_ok {offer : PairingOffer}
    (h : store.beginAt hash label random now = (.ok offer, store')) :
    random.map secretOf = some offer.code ∧ (store.unexpired now).length < maxPendingPairings ∧
      store' = ⟨store.unexpired now ++
        [⟨hash offer.code, trim label, now + pairingTtl⟩]⟩ := by
  unfold beginAt at h
  dsimp only at h
  split at h
  · cases h
  · cases random with
    | none => cases h
    | some random =>
      dsimp only [randomSecret] at h
      split at h
      · cases h
      · rename_i hroom
        cases h
        exact ⟨rfl, Nat.lt_of_not_le hroom, rfl⟩

theorem beginAt_eq_error {e : String}
    (h : store.beginAt hash label random now = (.error e, store')) :
    store'.pending.Sublist store.pending := by
  unfold beginAt at h
  dsimp only at h
  split at h
  · cases h
    exact List.Sublist.refl _
  · cases random with
    | none =>
      cases h
      exact List.Sublist.refl _
    | some random =>
      dsimp only [randomSecret] at h
      split at h
      · cases h
        exact store.unexpired_sublist now
      · cases h

/-- Asking for a code drops at most what has expired. -/
theorem isLive_store (hash : String → Digest) (store : PairingStore) (code : String)
    (now : Instant) :
    (store.isLive hash code now).2 = store ∨
      (store.isLive hash code now).2 = ⟨store.unexpired now⟩ := by
  unfold isLive
  split
  · exact Or.inl rfl
  · exact Or.inr rfl

/-- A store that drops at most what has expired. -/
theorem sublist_of_pruned (h : store' = store ∨ store' = ⟨store.unexpired now⟩) :
    store'.pending.Sublist store.pending := by
  rcases h with rfl | rfl
  · exact List.Sublist.refl _
  · exact store.unexpired_sublist now

theorem mem_of_pruned (h : store' = store ∨ store' = ⟨store.unexpired now⟩) {offer : PendingPairing}
    (hoffer : offer ∈ store.pending) (hlive : now < offer.expires) : offer ∈ store'.pending := by
  rcases h with rfl | rfl
  · exact hoffer
  · exact mem_unexpired.mpr ⟨hoffer, hlive⟩

theorem lastMatch_eq_some {pending : List PendingPairing} {wanted : Digest} {index : ℕ}
    (h : lastMatch pending wanted = some index) :
    ∃ offer, pending[index]? = some offer ∧ offer.digest = wanted := by
  unfold lastMatch at h
  have hfold (entries : List (PendingPairing × ℕ)) (found : Option ℕ)
      (hresult : entries.foldl (fun found entry ↦
        if ctDigestEq entry.1.digest wanted then some entry.2 else found) found = some index) :
      found = some index ∨ ∃ entry ∈ entries, entry.1.digest = wanted ∧ entry.2 = index := by
    induction entries generalizing found with
    | nil => exact Or.inl hresult
    | cons entry rest ih =>
      rcases ih _ hresult with hhead | ⟨later, hlater, hmatch⟩
      · dsimp only at hhead
        split at hhead
        · rename_i hmatch
          exact Or.inr ⟨entry, List.mem_cons_self, (ctDigestEq_iff _ _).mp hmatch,
            Option.some.inj hhead⟩
        · exact Or.inl hhead
      · exact Or.inr ⟨later, List.mem_cons_of_mem _ hlater, hmatch⟩
  rcases hfold _ _ h with hnone | ⟨entry, hentry, hdigest, rfl⟩
  · cases hnone
  · exact ⟨entry.1, List.mem_zipIdx_iff_getElem?.mp hentry, hdigest⟩

theorem consumeAt_eq_ok (h : store.consumeAt hash code now = (.ok label, store')) :
    ∃ index offer, (store.unexpired now)[index]? = some offer ∧
      offer.digest = hash (toAsciiLowercase code) ∧ label = offer.label ∧
      store' = ⟨(store.unexpired now).eraseIdx index⟩ := by
  unfold consumeAt at h
  dsimp only at h
  split at h
  · cases h
  · split at h
    · cases h
    · rename_i index hfound
      obtain ⟨offer, hoffer, hdigest⟩ := lastMatch_eq_some hfound
      rw [hoffer] at h
      cases h
      exact ⟨index, offer, hoffer, hdigest, rfl, rfl⟩

/-- A failed attempt drops at most what has expired. -/
theorem consumeAt_eq_error {e : String} (h : store.consumeAt hash code now = (.error e, store')) :
    store' = store ∨ store' = ⟨store.unexpired now⟩ := by
  unfold consumeAt at h
  dsimp only at h
  split at h
  · cases h
    exact Or.inl rfl
  · split at h
    · cases h
      exact Or.inr rfl
    · rename_i index hfound
      obtain ⟨offer, hoffer, -⟩ := lastMatch_eq_some hfound
      rw [hoffer] at h
      cases h

end PairingStore

/-! ## Runs -/

/-- An operation on the store, with what it reads of the clock and of the operating system. -/
inductive PairingOp where
  | begin (label : String) (random : Randomness) (now : Instant)
  | isLive (code : String) (now : Instant)
  | consume (code : String) (now : Instant)

def PairingOp.freshCode : PairingOp → Option String
  | .begin _ random _ => random.map secretOf
  | _ => none

def PairingOp.hashedCode : PairingOp → Option String
  | .begin _ random _ => random.map secretOf
  | .isLive code _ => some (toAsciiLowercase code)
  | .consume code _ => some (toAsciiLowercase code)

/-- A code that has been issued, with the label that was given for it. -/
structure Issue where
  code : String
  label : String
  expires : Instant

/-- A code that has been redeemed, with the label that was returned. -/
structure Redemption where
  code : String
  label : String
  now : Instant

structure Ledger where
  store : PairingStore
  issued : List Issue
  redeemed : List Redemption

namespace Ledger

def new : Ledger := ⟨.new, [], []⟩

/-- The ledger after an operation. -/
def step (hash : String → Digest) (ledger : Ledger) : PairingOp → Ledger
  | .begin label random now =>
    match ledger.store.beginAt hash label random now with
    | (.ok offer, store) =>
      { ledger with
        store := store
        issued := ledger.issued ++ [⟨offer.code, label, now + pairingTtl⟩] }
    | (.error _, store) => { ledger with store := store }
  | .isLive code now => { ledger with store := (ledger.store.isLive hash code now).2 }
  | .consume code now =>
    match ledger.store.consumeAt hash code now with
    | (.ok label, store) =>
      { ledger with store := store, redeemed := ledger.redeemed ++ [⟨code, label, now⟩] }
    | (.error _, store) => { ledger with store := store }

/-- What the store has pending was issued and has not been redeemed, and what has been redeemed was
issued with the label that was returned and had not expired. -/
structure Sound (hash : String → Digest) (ledger : Ledger) : Prop where
  pending : ∀ offer ∈ ledger.store.pending, ∃ issue ∈ ledger.issued,
    offer = ⟨hash issue.code, trim issue.label, issue.expires⟩ ∧
      ∀ redemption ∈ ledger.redeemed, toAsciiLowercase redemption.code ≠ issue.code
  distinct : (ledger.store.pending.map PendingPairing.digest).Nodup
  redeemed : ∀ redemption ∈ ledger.redeemed, ∃ issue ∈ ledger.issued,
    issue.code = toAsciiLowercase redemption.code ∧ redemption.label = trim issue.label ∧
      redemption.now < issue.expires
  once : (ledger.redeemed.map fun redemption ↦ toAsciiLowercase redemption.code).Nodup
  capped : ledger.store.pending.length ≤ maxPendingPairings

theorem sound_new (hash : String → Digest) : new.Sound hash where
  pending := nofun
  distinct := List.nodup_nil
  redeemed := nofun
  once := List.nodup_nil
  capped := Nat.zero_le _

variable {hash : String → Digest} {ledger : Ledger}

/-- Offers may be dropped. -/
theorem Sound.of_sublist (h : ledger.Sound hash) {store : PairingStore}
    (hsub : store.pending.Sublist ledger.store.pending) :
    ({ ledger with store := store } : Ledger).Sound hash where
  pending offer hoffer := h.pending offer (hsub.subset hoffer)
  distinct := h.distinct.sublist (hsub.map _)
  redeemed := h.redeemed
  once := h.once
  capped := hsub.length_le.trans h.capped

/-- A new code is pending, and no other offer has its digest. -/
theorem Sound.begin (h : ledger.Sound hash) {code label : String} {now : Instant}
    (hcode : ∀ issue ∈ ledger.issued, hash issue.code ≠ hash code)
    (hredeemed : ∀ redemption ∈ ledger.redeemed, toAsciiLowercase redemption.code ≠ code)
    (hroom : (ledger.store.unexpired now).length < maxPendingPairings) :
    ({ ledger with
      store := ⟨ledger.store.unexpired now ++ [⟨hash code, trim label, now + pairingTtl⟩]⟩
      issued := ledger.issued ++ [⟨code, label, now + pairingTtl⟩] } : Ledger).Sound hash where
  pending offer hoffer := by
    rcases List.mem_append.mp hoffer with hold | hnew
    · obtain ⟨issue, hissue, hoffer, hunused⟩ :=
        h.pending offer ((ledger.store.unexpired_sublist now).subset hold)
      exact ⟨issue, List.mem_append_left _ hissue, hoffer, hunused⟩
    · exact ⟨_, List.mem_append_right _ List.mem_cons_self, List.mem_singleton.mp hnew, hredeemed⟩
  distinct := by
    have hold := h.distinct.sublist ((ledger.store.unexpired_sublist now).map _)
    rw [List.map_append, List.map_singleton, List.nodup_append_comm, List.singleton_append,
      List.nodup_cons]
    refine ⟨?_, hold⟩
    intro hmem
    obtain ⟨offer, hoffer, hdigest⟩ := List.mem_map.mp hmem
    obtain ⟨issue, hissue, rfl, -⟩ :=
      h.pending offer ((ledger.store.unexpired_sublist now).subset hoffer)
    exact hcode issue hissue hdigest
  redeemed redemption hredemption := by
    obtain ⟨issue, hissue, hrest⟩ := h.redeemed redemption hredemption
    exact ⟨issue, List.mem_append_left _ hissue, hrest⟩
  once := h.once
  capped := by
    rw [List.length_append, List.length_singleton]
    exact hroom

/-- A code that is redeemed was pending, and is pending no longer. -/
theorem Sound.consume (h : ledger.Sound hash) {code : String} {now : Instant} {index : ℕ}
    {offer : PendingPairing} (hoffer : (ledger.store.unexpired now)[index]? = some offer)
    (hdigest : offer.digest = hash (toAsciiLowercase code))
    (hinj : ∀ issue ∈ ledger.issued, hash issue.code = hash (toAsciiLowercase code) →
      issue.code = toAsciiLowercase code) :
    ({ ledger with
      store := ⟨(ledger.store.unexpired now).eraseIdx index⟩
      redeemed := ledger.redeemed ++ [⟨code, offer.label, now⟩] } : Ledger).Sound hash := by
  have hmem := PairingStore.mem_unexpired.mp (List.mem_of_getElem? hoffer)
  obtain ⟨issue, hissue, rfl, hunused⟩ := h.pending offer hmem.1
  have hcode := hinj issue hissue hdigest
  -- Of the offers that stay none has the digest of the one that is removed.
  have hdistinct : (hash issue.code ::
      ((ledger.store.unexpired now).eraseIdx index).map PendingPairing.digest).Nodup := by
    have hunexpired := h.distinct.sublist ((ledger.store.unexpired_sublist now).map _)
    obtain ⟨hindex, hget⟩ := List.getElem?_eq_some_iff.mp hoffer
    have hperm := (List.getElem_cons_eraseIdx_perm hindex).map PendingPairing.digest
    rw [hget, List.map_cons] at hperm
    exact hperm.nodup_iff.mpr hunexpired
  obtain ⟨hgone, hrest⟩ := List.nodup_cons.mp hdistinct
  have hsub : ((ledger.store.unexpired now).eraseIdx index).Sublist ledger.store.pending :=
    (List.eraseIdx_sublist _ _).trans (ledger.store.unexpired_sublist now)
  refine ⟨?_, hrest, ?_, ?_, hsub.length_le.trans h.capped⟩
  · intro other hother
    obtain ⟨issue', hissue', rfl, hunused'⟩ := h.pending other (hsub.subset hother)
    refine ⟨issue', hissue', rfl, ?_⟩
    intro redemption hredemption
    rcases List.mem_append.mp hredemption with hold | hnew
    · exact hunused' redemption hold
    · obtain rfl := List.mem_singleton.mp hnew
      intro hsame
      refine hgone (List.mem_map.mpr ⟨_, hother, ?_⟩)
      change hash issue'.code = hash issue.code
      rw [hcode, ← hsame]
  · intro redemption hredemption
    rcases List.mem_append.mp hredemption with hold | hnew
    · exact h.redeemed redemption hold
    · obtain rfl := List.mem_singleton.mp hnew
      exact ⟨issue, hissue, hcode, rfl, hmem.2⟩
  · rw [List.map_append, List.map_singleton, List.nodup_append_comm, List.singleton_append,
      List.nodup_cons]
    refine ⟨?_, h.once⟩
    intro hused
    obtain ⟨redemption, hredemption, hsame⟩ := List.mem_map.mp hused
    exact hunused redemption hredemption (hsame.trans hcode.symm)

/-! ## Whole runs -/

/-- The operation asks for a code, or fails to redeem one. -/
def OnlyLooks (hash : String → Digest) (ledger : Ledger) : PairingOp → Prop
  | .begin _ _ _ => False
  | .isLive _ _ => True
  | .consume code now => ∃ e, (ledger.store.consumeAt hash code now).1 = .error e

def opTime : PairingOp → Instant
  | .begin _ _ now => now
  | .isLive _ now => now
  | .consume _ now => now

/-- Looking for a code keeps every offer that has not expired. -/
theorem mem_step_of_onlyLooks {op : PairingOp} (h : ledger.OnlyLooks hash op)
    {offer : PendingPairing} (hoffer : offer ∈ ledger.store.pending)
    (hlive : opTime op < offer.expires) : offer ∈ (ledger.step hash op).store.pending := by
  cases op with
  | begin label random now => exact h.elim
  | isLive code now =>
    exact PairingStore.mem_of_pruned (ledger.store.isLive_store hash code now) hoffer hlive
  | consume code now =>
    obtain ⟨e, he⟩ := h
    cases hconsume : ledger.store.consumeAt hash code now with
    | mk result store =>
      rw [hconsume] at he
      subst he
      simp only [step, hconsume]
      exact PairingStore.mem_of_pruned (PairingStore.consumeAt_eq_error hconsume) hoffer hlive

/-- What has been issued is what was issued before, and the code that the operation generates. -/
theorem issued_step {op : PairingOp} {issue : Issue} (h : issue ∈ (ledger.step hash op).issued) :
    issue ∈ ledger.issued ∨ op.freshCode = some issue.code := by
  cases op with
  | isLive code now => exact Or.inl h
  | consume code now =>
    simp only [step] at h
    split at h
    · exact Or.inl h
    · exact Or.inl h
  | begin label random now =>
    simp only [step] at h
    split at h
    · rename_i offer store hbegin
      rcases List.mem_append.mp h with hold | hnew
      · exact Or.inl hold
      · obtain rfl := List.mem_singleton.mp hnew
        exact Or.inr (PairingStore.beginAt_eq_ok hbegin).1
    · exact Or.inl h

/-- One operation keeps the ledger sound, if the code it generates is new and no other code it may
meet has the same digest. -/
theorem sound_step (h : ledger.Sound hash) {op : PairingOp}
    (hfresh : ∀ code, op.freshCode = some code → ∀ issue ∈ ledger.issued, issue.code ≠ code)
    (hinj : ∀ code, op.hashedCode = some code → ∀ issue ∈ ledger.issued,
      hash issue.code = hash code → issue.code = code) :
    (ledger.step hash op).Sound hash := by
  cases op with
  | begin label random now =>
    simp only [step]
    split
    · rename_i offer store hbegin
      obtain ⟨hcode, hroom, rfl⟩ := PairingStore.beginAt_eq_ok hbegin
      refine h.begin ?_ ?_ hroom
      · intro issue hissue hsame
        exact hfresh _ hcode issue hissue (hinj _ hcode issue hissue hsame)
      · -- What has been redeemed was issued, so it is another code.
        intro redemption hredemption hsame
        obtain ⟨issue, hissue, hissued, -⟩ := h.redeemed redemption hredemption
        exact hfresh _ hcode issue hissue (hissued.trans hsame)
    · rename_i e store hbegin
      exact h.of_sublist (PairingStore.beginAt_eq_error hbegin)
  | isLive code now =>
    exact h.of_sublist (PairingStore.sublist_of_pruned (ledger.store.isLive_store hash code now))
  | consume code now =>
    simp only [step]
    split
    · rename_i label store hconsume
      obtain ⟨index, offer, hoffer, hdigest, rfl, rfl⟩ := PairingStore.consumeAt_eq_ok hconsume
      exact h.consume hoffer hdigest (hinj _ rfl)
    · rename_i e store hconsume
      exact h.of_sublist (PairingStore.sublist_of_pruned (PairingStore.consumeAt_eq_error hconsume))

/-- A run keeps the ledger sound if it generates different codes that have different digests. -/
theorem sound_run (h : ledger.Sound hash) {ops : List PairingOp}
    (hfresh : (ops.filterMap PairingOp.freshCode).Nodup)
    (hnew : ∀ issue ∈ ledger.issued, issue.code ∉ ops.filterMap PairingOp.freshCode)
    {codes : Set String} (hinj : Set.InjOn hash codes)
    (hissued : ∀ issue ∈ ledger.issued, issue.code ∈ codes)
    (hcodes : ∀ code ∈ ops.filterMap PairingOp.hashedCode, code ∈ codes) :
    (Run.run (step hash) ledger ops).Sound hash := by
  induction ops generalizing ledger with
  | nil => exact h
  | cons op rest ih =>
    have hop (code : String) (hcode : op.hashedCode = some code) : code ∈ codes :=
      hcodes code (List.mem_filterMap.mpr ⟨op, List.mem_cons_self, hcode⟩)
    have hhashed (code : String) (hcode : op.freshCode = some code) :
        op.hashedCode = some code := by
      cases op with
      | begin label random now => exact hcode
      | isLive _ _ => cases hcode
      | consume _ _ => cases hcode
    have hlater (code : String) (hcode : code ∈ rest.filterMap PairingOp.freshCode) :
        code ∈ (op :: rest).filterMap PairingOp.freshCode := by
      obtain ⟨later, hmem, hlater⟩ := List.mem_filterMap.mp hcode
      exact List.mem_filterMap.mpr ⟨later, List.mem_cons_of_mem _ hmem, hlater⟩
    rw [Run.run_cons]
    refine ih ?_ ?_ ?_ ?_ ?_
    · refine sound_step h ?_ ?_
      · rintro code hcode issue hissue rfl
        exact hnew issue hissue (List.mem_filterMap.mpr ⟨op, List.mem_cons_self, hcode⟩)
      · intro code hcode issue hissue hsame
        exact hinj (hissued issue hissue) (hop code hcode) hsame
    · exact hfresh.sublist ((List.sublist_cons_self op rest).filterMap _)
    · intro issue hissue hmem
      rcases issued_step hissue with hold | hgenerated
      · exact hnew issue hold (hlater _ hmem)
      · rw [List.filterMap_cons_some hgenerated, List.nodup_cons] at hfresh
        exact hfresh.1 hmem
    · intro issue hissue
      rcases issued_step hissue with hold | hgenerated
      · exact hissued issue hold
      · exact hop _ (hhashed _ hgenerated)
    · intro code hcode
      obtain ⟨later, hmem, hlater⟩ := List.mem_filterMap.mp hcode
      exact hcodes code (List.mem_filterMap.mpr ⟨later, List.mem_cons_of_mem _ hmem, hlater⟩)

/-- In every run that generates different codes, and in which different codes have different
digests, every code is redeemed at most once, before it expires and with the label it was issued
with; looking for a code keeps every offer that has not expired; and the pending offers stay within
their cap. -/
theorem pairing_codes_once (hash : String → Digest) (ops : List PairingOp)
    (hfresh : (ops.filterMap PairingOp.freshCode).Nodup)
    (hinj : Set.InjOn hash { code | code ∈ ops.filterMap PairingOp.hashedCode }) :
    let ledger := Run.run (step hash) new ops
    (ledger.redeemed.map fun redemption ↦ toAsciiLowercase redemption.code).Nodup ∧
      (∀ redemption ∈ ledger.redeemed, ∃ issue ∈ ledger.issued,
        issue.code = toAsciiLowercase redemption.code ∧ redemption.label = trim issue.label ∧
          redemption.now < issue.expires) ∧
      Run.Meets (step hash) (fun before op ↦ before.OnlyLooks hash op →
        ∀ offer ∈ before.store.pending, opTime op < offer.expires →
          offer ∈ (before.step hash op).store.pending) new ops ∧
      ledger.store.pending.length ≤ maxPendingPairings := by
  have hsound : (Run.run (step hash) new ops).Sound hash :=
    sound_run (sound_new hash) hfresh nofun hinj nofun fun _ ↦ id
  refine ⟨hsound.once, hsound.redeemed, ?_, hsound.capped⟩
  apply Run.Meets.of_forall
  intro before op hlooks offer hoffer hlive
  exact mem_step_of_onlyLooks hlooks hoffer hlive

def hashOfTwoCodes (code : String) : Digest :=
  if code = secretOf (.replicate 32 0) then
    #v[96, 224, 91, 209, 177, 149, 175, 47, 148, 17, 47, 167, 25, 122, 92, 136, 40, 144, 88, 132,
      12, 231, 198, 223, 150, 147, 117, 107, 198, 37, 15, 85]
  else if code = secretOf (.replicate 32 255) then
    #v[223, 7, 144, 242, 54, 1, 53, 17, 233, 31, 164, 83, 47, 183, 118, 31, 98, 50, 10, 81, 163,
      134, 141, 171, 244, 161, 63, 229, 245, 62, 50, 99]
  else .replicate 32 0

/-- A code is issued and redeemed, the same code is tried a second time, and so is one that was not
issued. -/
def officeRun : List PairingOp :=
  let code := secretOf (.replicate 32 0)
  [.begin " office laptop " (some (.replicate 32 0)) 0, .isLive code 1,
    .consume (secretOf (.replicate 32 255)) 2, .consume code 3, .consume code 4]

theorem pairing_codes_once_office_laptop :
    let ledger := Run.run (step hashOfTwoCodes) new officeRun
    ledger.redeemed.map Redemption.label = ["office laptop"] ∧
      (ledger.redeemed.map fun redemption ↦ toAsciiLowercase redemption.code).Nodup ∧
      ledger.store.pending.length ≤ maxPendingPairings := by
  have hinj : ∀ a ∈ officeRun.filterMap PairingOp.hashedCode,
      ∀ b ∈ officeRun.filterMap PairingOp.hashedCode,
        hashOfTwoCodes a = hashOfTwoCodes b → a = b := by
    decide +kernel
  have hruns := pairing_codes_once hashOfTwoCodes officeRun (List.nodup_singleton _)
    fun a ha b hb ↦ hinj a ha b hb
  exact ⟨by decide +kernel, hruns.1, hruns.2.2.2⟩

end Ledger

end Cameo.Hub
