import Cameo.Json
import Cameo.Text

/-!
# The installed A/B layout

`update-layout.json` says which slot is active, how each slot is booted, and which partitions belong
to the installation.  It is read as a JSON document and checked as a whole each time.  Two changes
are made to it: a healthy trial becomes the active slot with its boot entry, and a rollback makes
the prior slot active again.
-/

namespace Cameo.Update

open Json

/-- Go on only if a condition holds. -/
def ensure (cond : Prop) [Decidable cond] (error : String) : Except String Unit :=
  if cond then .ok () else .error error

@[simp]
theorem ensure_eq_ok {cond : Prop} [Decidable cond] {error : String} {u : Unit} :
    ensure cond error = .ok u ↔ cond := by
  unfold ensure
  split
  · simp [*]
  · simp [*]

/-- A check after another one passes if both do. -/
@[simp]
theorem andThen_eq_ok {first : Except String Unit} {rest : Unit → Except String Unit} {u : Unit} :
    (first >>= rest) = .ok u ↔ first = .ok () ∧ rest () = .ok u := by
  cases first with
  | ok _ => simp [bind, Except.bind]
  | error e => simp [bind, Except.bind]

/-! ## Slots -/

inductive Slot where
  | A
  | B
deriving DecidableEq

namespace Slot

/-- The name of a slot in the layout and on the kernel command line. -/
def label : Slot → String
  | A => "A"
  | B => "B"

def other : Slot → Slot
  | A => B
  | B => A

def ofLabel? (label : String) : Option Slot :=
  if label = "A" then some A else if label = "B" then some B else none

@[simp]
theorem other_ne (slot : Slot) : slot.other ≠ slot := by cases slot <;> decide

@[simp]
theorem ofLabel?_label (slot : Slot) : ofLabel? slot.label = some slot := by cases slot <;> rfl

theorem label_injective {left right : Slot} (h : left.label = right.label) : left = right := by
  have hsome : some left = some right := by rw [← ofLabel?_label, h, ofLabel?_label]
  exact Option.some.inj hsome

theorem eq_other_of_ne {left right : Slot} (h : left ≠ right) : left = right.other := by
  cases left <;> cases right <;> first | rfl | exact absurd rfl h

end Slot

/-! ## Fields -/

/-- `LAYOUT_SCHEMA`. -/
def layoutSchema : String := "cameo-update-layout/v2"

/-- `value.get(field)` where it is a string. -/
def text (value : Value) (field : String) : Option String := (value.get? field).bind Value.asStr

def Filled (value : Value) (field : String) : Prop :=
  (text value field).any (fun found ↦ !stripsEmpty found) = true

instance (value : Value) (field : String) : Decidable (Filled value field) :=
  inferInstanceAs (Decidable (_ = true))

def slotEntry (layout : Value) (slot : Slot) : Value := (layout.index "slots").index slot.label

/-- `layout["active_slot"]`, where it is one of the slots. -/
def activeSlot (layout : Value) : Option Slot := (text layout "active_slot").bind Slot.ofLabel?

/-- `layout["slots"][slot]["boot_entry"]`. -/
def bootEntry (layout : Value) (slot : Slot) : Option String :=
  text (slotEntry layout slot) "boot_entry"

/-- A boot entry is absent, null, or a string that is not blank. -/
def BootEntryOk (entry : Value) : Prop :=
  entry.index "boot_entry" = .null ∨ Filled entry "boot_entry"

instance (entry : Value) : Decidable (BootEntryOk entry) := inferInstanceAs (Decidable (_ ∨ _))

/-! ## Validation -/

def validateSlot (layout : Value) (slot : Slot) : Except String Unit := do
  ensure ((slotEntry layout slot).isObject = true) ("invalid slot " ++ slot.label)
  ensure (Filled (slotEntry layout slot) "partuuid") ("slot " ++ slot.label ++ " lacks partuuid")
  ensure (Filled (slotEntry layout slot) "device_id") ("slot " ++ slot.label ++ " lacks device_id")
  ensure (BootEntryOk (slotEntry layout slot))
    ("slot " ++ slot.label ++ " has an invalid boot entry")

def validatePartition (layout : Value) (name : String) : Except String Unit := do
  ensure ((layout.index name).isObject = true) (name ++ " partition is missing")
  ensure (Filled (layout.index name) "partuuid") (name ++ " partition lacks partuuid")
  ensure (Filled (layout.index name) "device_id") (name ++ " partition lacks device_id")

/-- A field of the two slots and the two other partitions. -/
def partitions (layout : Value) (field : String) : List (Option String) :=
  [text (slotEntry layout .A) field, text (slotEntry layout .B) field,
    text (layout.index "persistent") field, text (layout.index "boot") field]

/-- `validate_layout`. -/
def validateLayout (layout : Value) : Except String Unit := do
  ensure (layout.get? "schema" = some (.string layoutSchema)) "unsupported installed update layout"
  ensure (text layout "firmware" = some "uefi" ∨ text layout "firmware" = some "bios")
    "unsupported firmware layout"
  ensure (text layout "bootloader" = some "systemd-boot" ∨ text layout "bootloader" = some "grub")
    "unsupported bootloader"
  ensure (text layout "firmware" = some "uefi" → text layout "bootloader" = some "systemd-boot")
    "UEFI A/B requires systemd-boot assessment"
  ensure (text layout "firmware" = some "bios" → text layout "bootloader" = some "grub")
    "BIOS A/B requires the GRUB fallback adapter"
  ensure ((∀ key ∈ (layout.index "slots").keys, key = "A" ∨ key = "B") ∧
      (∀ key ∈ ["A", "B"], key ∈ (layout.index "slots").keys) ∧ (activeSlot layout).isSome = true)
    "layout must contain exactly slots A and B"
  validateSlot layout .A
  validateSlot layout .B
  ensure (((activeSlot layout).bind (bootEntry layout)).isSome = true)
    "active slot lacks a boot entry"
  validatePartition layout "persistent"
  validatePartition layout "boot"
  ensure (partitions layout "partuuid").Nodup "slot and persistent partition identities alias"
  ensure (∀ device ∈ partitions layout "device_id", device = text (slotEntry layout .A) "device_id")
    "A/B and persistence must remain on the installed device"

/-! ## Changes -/

def withActive (layout : Value) (slot : Slot) : Value :=
  layout.set "active_slot" (.string slot.label)

def withBootEntry (layout : Value) (slot : Slot) (entry : Option String) : Value :=
  layout.set "slots" ((layout.index "slots").set slot.label
    ((slotEntry layout slot).set "boot_entry" (.option .string entry)))

/-- The layout that `commit` prepares: a slot is active, with its boot entry. -/
def promoted (layout : Value) (slot : Slot) (entry : Option String) : Value :=
  withActive (withBootEntry layout slot entry) slot

theorem mem_keys {value : Value} {key : String} :
    key ∈ value.keys ↔ (value.get? key).isSome = true := by
  cases value with
  | object fields => simp [Value.keys, Value.get?]
  | _ => simp [Value.keys, Value.get?]

theorem isObject_of_get? {value found : Value} {field : String}
    (h : value.get? field = some found) : value.IsObject := by
  cases value with
  | object fields => trivial
  | _ => cases h

theorem isObject_of_eq_true {value : Value} (h : value.isObject = true) : value.IsObject := by
  cases value with
  | object fields => trivial
  | _ => cases h

theorem isObject_set {value : Value} (h : value.IsObject) (field : String) (new : Value) :
    (value.set field new).isObject = true := by
  cases value with
  | object fields => rfl
  | _ => exact h.elim

theorem text_set_of_ne {value new : Value} {field other : String} (h : field ≠ other) :
    text (value.set field new) other = text value other := by
  unfold text
  rw [Value.get?_set_of_ne h]

theorem index_set_of_ne {value new : Value} {field other : String} (h : field ≠ other) :
    (value.set field new).index other = value.index other := by
  unfold Value.index
  rw [Value.get?_set_of_ne h]

theorem index_set_self {value : Value} (h : value.IsObject) (field : String) (new : Value) :
    (value.set field new).index field = new := by
  rw [Value.index, Value.get?_set_self field new h]
  rfl

section Changes

variable {layout : Value} {slot : Slot} {entry : Option String}

theorem activeSlot_withActive (h : layout.IsObject) (slot : Slot) :
    activeSlot (withActive layout slot) = some slot := by
  simp [activeSlot, withActive, text, Value.get?_set_self _ _ h, Value.asStr]

theorem slotEntry_withActive (slot other : Slot) :
    slotEntry (withActive layout slot) other = slotEntry layout other := by
  rw [slotEntry, withActive, index_set_of_ne (by decide)]
  rfl

theorem activeSlot_withBootEntry :
    activeSlot (withBootEntry layout slot entry) = activeSlot layout := by
  rw [activeSlot, withBootEntry, text_set_of_ne (by decide)]
  rfl

theorem slotEntry_withBootEntry_self (h : layout.IsObject)
    (hslots : (layout.index "slots").IsObject) :
    slotEntry (withBootEntry layout slot entry) slot =
      (slotEntry layout slot).set "boot_entry" (.option .string entry) := by
  rw [slotEntry, withBootEntry, index_set_self h, index_set_self hslots]

theorem slotEntry_withBootEntry_of_ne (h : layout.IsObject) {other : Slot} (hne : slot ≠ other) :
    slotEntry (withBootEntry layout slot entry) other = slotEntry layout other := by
  rw [slotEntry, withBootEntry, index_set_self h,
    index_set_of_ne fun heq ↦ hne (Slot.label_injective heq)]
  rfl

/-- Only the active slot and the slots differ in a promoted layout. -/
theorem get?_promoted {field : String} (hactive : field ≠ "active_slot")
    (hslots : field ≠ "slots") : (promoted layout slot entry).get? field = layout.get? field := by
  rw [promoted, withActive, Value.get?_set_of_ne hactive.symm, withBootEntry,
    Value.get?_set_of_ne hslots.symm]

theorem slotEntry_promoted_self (h : layout.IsObject) (hslots : (layout.index "slots").IsObject) :
    slotEntry (promoted layout slot entry) slot =
      (slotEntry layout slot).set "boot_entry" (.option .string entry) := by
  rw [promoted, slotEntry_withActive, slotEntry_withBootEntry_self h hslots]

theorem slotEntry_promoted_of_ne (h : layout.IsObject) {other : Slot} (hne : slot ≠ other) :
    slotEntry (promoted layout slot entry) other = slotEntry layout other := by
  rw [promoted, slotEntry_withActive, slotEntry_withBootEntry_of_ne h hne]

theorem activeSlot_promoted (h : layout.IsObject) :
    activeSlot (promoted layout slot entry) = some slot :=
  activeSlot_withActive (isObject_of_eq_true (isObject_set h _ _)) slot

end Changes

/-! ## Valid layouts -/

structure SlotOk (entry : Value) : Prop where
  dict : entry.isObject = true
  partuuid : Filled entry "partuuid"
  device : Filled entry "device_id"
  bootEntry : BootEntryOk entry

structure PartitionOk (partition : Value) : Prop where
  dict : partition.isObject = true
  partuuid : Filled partition "partuuid"
  device : Filled partition "device_id"

/-- What `validate_layout` asks of a layout. -/
structure LayoutOk (layout : Value) : Prop where
  schema : layout.get? "schema" = some (.string layoutSchema)
  firmware : text layout "firmware" = some "uefi" ∨ text layout "firmware" = some "bios"
  bootloader : text layout "bootloader" = some "systemd-boot" ∨
    text layout "bootloader" = some "grub"
  uefi : text layout "firmware" = some "uefi" → text layout "bootloader" = some "systemd-boot"
  bios : text layout "firmware" = some "bios" → text layout "bootloader" = some "grub"
  onlySlots : ∀ key ∈ (layout.index "slots").keys, key = "A" ∨ key = "B"
  bothSlots : ∀ key ∈ ["A", "B"], key ∈ (layout.index "slots").keys
  active : (activeSlot layout).isSome = true
  slot : ∀ slot, SlotOk (slotEntry layout slot)
  bootable : ((activeSlot layout).bind (bootEntry layout)).isSome = true
  persistent : PartitionOk (layout.index "persistent")
  boot : PartitionOk (layout.index "boot")
  distinct : (partitions layout "partuuid").Nodup
  device : ∀ device ∈ partitions layout "device_id",
    device = text (slotEntry layout .A) "device_id"

theorem validateSlot_eq_ok {layout : Value} {slot : Slot} {u : Unit} :
    validateSlot layout slot = .ok u ↔ SlotOk (slotEntry layout slot) := by
  simp only [validateSlot, andThen_eq_ok, ensure_eq_ok]
  exact ⟨fun ⟨hdict, hpartuuid, hdevice, hentry⟩ ↦ ⟨hdict, hpartuuid, hdevice, hentry⟩,
    fun h ↦ ⟨h.dict, h.partuuid, h.device, h.bootEntry⟩⟩

theorem validatePartition_eq_ok {layout : Value} {name : String} {u : Unit} :
    validatePartition layout name = .ok u ↔ PartitionOk (layout.index name) := by
  simp only [validatePartition, andThen_eq_ok, ensure_eq_ok]
  exact ⟨fun ⟨hdict, hpartuuid, hdevice⟩ ↦ ⟨hdict, hpartuuid, hdevice⟩,
    fun h ↦ ⟨h.dict, h.partuuid, h.device⟩⟩

theorem validateLayout_eq_ok {layout : Value} {u : Unit} :
    validateLayout layout = .ok u ↔ LayoutOk layout := by
  simp only [validateLayout, andThen_eq_ok, ensure_eq_ok, validateSlot_eq_ok,
    validatePartition_eq_ok]
  constructor
  · rintro ⟨hschema, hfirmware, hbootloader, huefi, hbios, ⟨honly, hboth, hactive⟩, hA, hB,
      hbootable, hpersistent, hboot, hdistinct, hdevice⟩
    exact ⟨hschema, hfirmware, hbootloader, huefi, hbios, honly, hboth, hactive,
      fun slot ↦ by cases slot with | A => exact hA | B => exact hB,
      hbootable, hpersistent, hboot, hdistinct, hdevice⟩
  · intro h
    exact ⟨h.schema, h.firmware, h.bootloader, h.uefi, h.bios, ⟨h.onlySlots, h.bothSlots, h.active⟩,
      h.slot .A, h.slot .B, h.bootable, h.persistent, h.boot, h.distinct, h.device⟩

namespace LayoutOk

variable {layout : Value} {slot : Slot}

theorem isObject (h : LayoutOk layout) : layout.IsObject := isObject_of_get? h.schema

theorem slots_isObject (h : LayoutOk layout) : (layout.index "slots").IsObject := by
  have hmem := mem_keys.mp (h.bothSlots "A" (by decide))
  obtain ⟨entry, hentry⟩ := Option.isSome_iff_exists.mp hmem
  exact isObject_of_get? hentry

/-- A layout that differs from a valid one at most in the active slot and in boot entries is valid
if its slots are, and the active one has a boot entry. -/
theorem of_same {changed : Value} (h : LayoutOk layout)
    (hget : ∀ field, field ≠ "active_slot" → field ≠ "slots" →
      changed.get? field = layout.get? field)
    (hkeys : ∀ key, key ∈ (changed.index "slots").keys ↔ key ∈ (layout.index "slots").keys)
    (hslot : ∀ slot, SlotOk (slotEntry changed slot))
    (hsame : ∀ slot field, field ≠ "boot_entry" →
      text (slotEntry changed slot) field = text (slotEntry layout slot) field)
    {active : Slot} (hactive : activeSlot changed = some active)
    (hboot : (bootEntry changed active).isSome = true) : LayoutOk changed := by
  have htext (field : String) (hnotActive : field ≠ "active_slot") (hnotSlots : field ≠ "slots") :
      text changed field = text layout field := by
    rw [text, hget field hnotActive hnotSlots]
    rfl
  have hindex (field : String) (hnotActive : field ≠ "active_slot") (hnotSlots : field ≠ "slots") :
      changed.index field = layout.index field := by
    rw [Value.index, hget field hnotActive hnotSlots]
    rfl
  have hfirmware := htext "firmware" (by decide) (by decide)
  have hbootloader := htext "bootloader" (by decide) (by decide)
  have hpersistent := hindex "persistent" (by decide) (by decide)
  have hbootPartition := hindex "boot" (by decide) (by decide)
  have hpartitions (field : String) (hne : field ≠ "boot_entry") :
      partitions changed field = partitions layout field := by
    rw [partitions, hsame .A field hne, hsame .B field hne, hpersistent, hbootPartition]
    rfl
  exact {
    schema := (hget "schema" (by decide) (by decide)).trans h.schema
    firmware := hfirmware ▸ h.firmware
    bootloader := hbootloader ▸ h.bootloader
    uefi := hfirmware ▸ hbootloader ▸ h.uefi
    bios := hfirmware ▸ hbootloader ▸ h.bios
    onlySlots := fun key hkey ↦ h.onlySlots key ((hkeys key).mp hkey)
    bothSlots := fun key hkey ↦ (hkeys key).mpr (h.bothSlots key hkey)
    active := by rw [hactive]; rfl
    slot := hslot
    bootable := by rw [hactive]; exact hboot
    persistent := hpersistent ▸ h.persistent
    boot := hbootPartition ▸ h.boot
    distinct := (hpartitions "partuuid" (by decide)).symm ▸ h.distinct
    device := by
      rw [hpartitions "device_id" (by decide), hsame .A "device_id" (by decide)]
      exact h.device }

/-- The layout with another active slot is valid if the slot has a boot entry. -/
theorem withActive (h : LayoutOk layout) (hboot : (bootEntry layout slot).isSome = true) :
    LayoutOk (withActive layout slot) := by
  have hentry (other : Slot) : slotEntry (Update.withActive layout slot) other =
      slotEntry layout other := slotEntry_withActive slot other
  have hslots : (Update.withActive layout slot).index "slots" = layout.index "slots" :=
    index_set_of_ne (by decide)
  refine h.of_same (fun field hne _ ↦ Value.get?_set_of_ne hne.symm _ _) (fun key ↦ ?_)
    (fun other ↦ ?_) (fun other field _ ↦ ?_) (activeSlot_withActive h.isObject slot) ?_
  · rw [hslots]
  · rw [hentry]
    exact h.slot other
  · rw [hentry]
  · rw [bootEntry, hentry]
    exact hboot

/-- A slot that is given a boot entry is still a valid one. -/
theorem slotOk_set {entry : Value} (h : SlotOk entry) {name : String}
    (hname : stripsEmpty name = false) : SlotOk (entry.set "boot_entry" (.string name)) := by
  have hobject := isObject_of_eq_true h.dict
  refine ⟨isObject_set hobject _ _, ?_, ?_, .inr ?_⟩
  · unfold Filled
    rw [text_set_of_ne (by decide)]
    exact h.partuuid
  · unfold Filled
    rw [text_set_of_ne (by decide)]
    exact h.device
  · unfold Filled text
    rw [Value.get?_set_self _ _ hobject]
    simp [Value.asStr, hname]

/-- The layout with another boot entry is valid. -/
theorem withBootEntry (h : LayoutOk layout) {name : String} (hname : stripsEmpty name = false) :
    LayoutOk (withBootEntry layout slot (some name)) := by
  have hself : slotEntry (Update.withBootEntry layout slot (some name)) slot =
      (slotEntry layout slot).set "boot_entry" (.string name) :=
    slotEntry_withBootEntry_self h.isObject h.slots_isObject
  have hother (other : Slot) (hne : slot ≠ other) :
      slotEntry (Update.withBootEntry layout slot (some name)) other = slotEntry layout other :=
    slotEntry_withBootEntry_of_ne h.isObject hne
  have hslots : (Update.withBootEntry layout slot (some name)).index "slots" =
      (layout.index "slots").set slot.label
        ((slotEntry layout slot).set "boot_entry" (.string name)) := index_set_self h.isObject _ _
  obtain ⟨active, hactive⟩ := Option.isSome_iff_exists.mp h.active
  have hboot : (bootEntry layout active).isSome = true := by
    have hbootable := h.bootable
    rwa [hactive, Option.bind_some] at hbootable
  refine h.of_same (fun field _ hne ↦ Value.get?_set_of_ne hne.symm _ _) (fun key ↦ ?_)
    (fun other ↦ ?_) (fun other field hne ↦ ?_) (activeSlot_withBootEntry.trans hactive) ?_
  · rw [hslots, mem_keys, mem_keys]
    by_cases hlabel : slot.label = key
    · rw [hlabel, Value.get?_set_self _ _ h.slots_isObject]
      refine iff_of_true rfl (mem_keys.mp (h.bothSlots key ?_))
      rw [← hlabel]
      cases slot <;> decide
    · rw [Value.get?_set_of_ne hlabel]
  · by_cases hsame : slot = other
    · rw [← hsame, hself]
      exact slotOk_set (h.slot slot) hname
    · rw [hother other hsame]
      exact h.slot other
  · by_cases hsame : slot = other
    · rw [← hsame, hself, text_set_of_ne hne.symm]
    · rw [hother other hsame]
  · by_cases hsame : slot = active
    · rw [← hsame, bootEntry, hself, text,
        Value.get?_set_self _ _ (isObject_of_eq_true (h.slot slot).dict)]
      rfl
    · rw [bootEntry, hother active hsame]
      exact hboot

theorem bootEntry_promoted (h : LayoutOk layout) (slot : Slot) (name : String) :
    bootEntry (promoted layout slot (some name)) slot = some name := by
  rw [bootEntry, slotEntry_promoted_self h.isObject h.slots_isObject, text,
    Value.get?_set_self _ _ (isObject_of_eq_true (h.slot slot).dict)]
  rfl

/-- The layout that `commit` prepares is valid. -/
theorem promoted (h : LayoutOk layout) {name : String} (hname : stripsEmpty name = false) :
    LayoutOk (promoted layout slot (some name)) := by
  refine (h.withBootEntry hname).withActive ?_
  have hboot := h.bootEntry_promoted slot name
  rw [bootEntry, Update.promoted, slotEntry_withActive] at hboot
  rw [bootEntry, hboot]
  rfl

end LayoutOk

end Cameo.Update
