import I3cHost.Proofs.Target.Operations

/-!
# Which target an item of a report is merged into

Rows of a listing and entries of a capability report are merged in the same way: an item is taken
over by the first target that holds the address which the item gives, or else by the first that is
known by its identifier, or else by a new target at the end. A `Matching` is what the two have in
common, and `places` are the places of the targets that items are merged into, one after the other.

Items with different addresses and identifiers may still be merged into one target, if the first of
them has no identifier and leaves the target known by that of the second. A target that only one
item is merged into is in the end as that item makes of what was known of it before
(`kept_or_taken`), and the item is about this target still (`found_mergeAll`). So the item agrees
with the outcome, and items change nothing exactly if all of them agree with what is there
(`mergeAll_eq_self_iff`).
-/

namespace I3cHost

section

variable {α : Type} {values next : List α} {select : α → Bool} {index : Nat}

/-- The first value that is selected, place by place. -/
theorem findIdx?_eq_some_iff_any : values.findIdx? select = some index ↔
    (values[index]?).any select = true ∧
      ∀ before < index, (values[before]?).any select = false := by
  rw [List.findIdx?_eq_some_iff_getElem]
  constructor
  · rintro ⟨hindex, hselect, hfirst⟩
    refine ⟨by simpa [hindex] using hselect, fun before hbefore ↦ ?_⟩
    simpa [Nat.lt_trans hbefore hindex] using hfirst before hbefore
  · rintro ⟨hany, hfirst⟩
    obtain ⟨value, hvalue, hselect⟩ := (Option.any_eq_true _ _).1 hany
    obtain ⟨hindex, rfl⟩ := List.getElem?_eq_some_iff.1 hvalue
    refine ⟨hindex, hselect, fun before hbefore ↦ ?_⟩
    simpa [Nat.lt_trans hbefore hindex] using hfirst before hbefore

/-- Nothing is found exactly if nothing at any position is selected. -/
theorem findIdx?_eq_none_iff_any :
    values.findIdx? select = none ↔ ∀ index : Nat, (values[index]?).any select = false := by
  rw [List.findIdx?_eq_none_iff]
  constructor
  · intro h index
    cases hvalue : values[index]? with
    | none => rfl
    | some value => exact h value (List.mem_of_getElem? hvalue)
  · intro h value hvalue
    obtain ⟨index, hindex⟩ := List.mem_iff_getElem?.1 hvalue
    simpa [hindex] using h index

/-- The first value that is selected stays the first if it is still selected and no other is that
was not before. -/
theorem findIdx?_of_any (h : values.findIdx? select = some index)
    (hindex : (next[index]?).any select = true)
    (hbefore : ∀ place : Nat,
      (next[place]?).any select = true → (values[place]?).any select = true) :
    next.findIdx? select = some index := by
  obtain ⟨-, hfirst⟩ := findIdx?_eq_some_iff_any.1 h
  refine findIdx?_eq_some_iff_any.2 ⟨hindex, fun before hlt ↦ ?_⟩
  rw [← Bool.not_eq_true]
  intro hany
  exact absurd ((hfirst before hlt).symm.trans (hbefore before hany)) Bool.false_ne_true

end

/-- How the items of a report are merged into targets. -/
structure Matching (Item : Type) where
  /-- The address of a target by which it is found. Zero is no address. -/
  held : TargetDevice → UInt8
  /-- The address that an item gives. -/
  given : Item → UInt8
  /-- The identifier of an item. -/
  pid : Item → ProvisionedId
  /-- The target after an item has been taken over. -/
  take : TargetDevice → Item → TargetDevice
  /-- The target then holds the address that the item gives. -/
  held_take : ∀ device item, held (take device item) = given item
  /-- It is known by the identifier of the item, or by the one before if the item has none. -/
  matchesPid_take : ∀ device item other, (take device item).matchesPid other =
    if (pid item).isZero then device.matchesPid other else pid item == other
  /-- Taking an item over a second time changes nothing. -/
  take_take : ∀ device item, take (take device item) item = take device item

namespace Matching

variable {Item : Type} (matching : Matching Item)

/-- Whether a target holds the address that an item gives. -/
def holds (item : Item) (device : TargetDevice) : Bool :=
  matching.given item != 0 && matching.held device == matching.given item

/-- The place of the target that an item is about. -/
def found (devices : List TargetDevice) (item : Item) : Option Nat :=
  (devices.findIdx? (matching.holds item)).or
    (devices.findIdx? (·.matchesPid (matching.pid item)))

/-- The place of the target that an item is merged into. A new one is the last. -/
def place (devices : List TargetDevice) (item : Item) : Nat :=
  (matching.found devices item).getD devices.length

/-- The targets after an item has been merged. -/
def merge (devices : List TargetDevice) (item : Item) : List TargetDevice :=
  match matching.found devices item with
  | some place => devices.modify place (matching.take · item)
  | none => devices ++ [matching.take {} item]

/-- The targets after items have been merged one after the other. -/
def mergeAll (devices : List TargetDevice) (items : List Item) : List TargetDevice :=
  items.foldl matching.merge devices

/-- The places of the targets that the items are merged into. -/
def places (devices : List TargetDevice) : List Item → List Nat
  | [] => []
  | item :: items => matching.place devices item :: places (matching.merge devices item) items

/-- Two items give different addresses and different identifiers, unless they have none. -/
structure Apart (first second : Item) : Prop where
  given : matching.given first ≠ 0 → matching.given first ≠ matching.given second
  pid : (matching.pid first).isZero = false → matching.pid first ≠ matching.pid second

/-- No address and no identifier is given twice. -/
def Unambiguous (items : List Item) : Prop :=
  items.Pairwise matching.Apart

/-- An item has an address or an identifier. -/
def Named (item : Item) : Prop :=
  matching.given item ≠ 0 ∨ (matching.pid item).isZero = false

/-- Whether the target that an item is about is there, and the item says of it what is known
already. -/
def Agrees (devices : List TargetDevice) (item : Item) : Prop :=
  ∃ place device, matching.found devices item = some place ∧ devices[place]? = some device ∧
    matching.take device item = device

/-- One of the later items is merged into the target that an item was merged into. -/
def Overtaken (devices : List TargetDevice) (front : List Item) (item : Item) (later : List Item) :
    Prop :=
  matching.place (matching.mergeAll devices front) item ∈
    matching.places (matching.merge (matching.mergeAll devices front) item) later

variable {matching} {devices : List TargetDevice} {item other : Item}
  {items front later : List Item} {place : Nat} {device known : TargetDevice} {address : UInt8}

/-- Which of two items is compared with which does not matter. -/
theorem Apart.symm (h : matching.Apart item other) : matching.Apart other item where
  given hzero heq := h.given (heq ▸ hzero) heq.symm
  pid hzero heq := h.pid (heq ▸ hzero) heq.symm

/-- A target holds the address of an item if both have one and it is the same. -/
theorem holds_iff : matching.holds item device = true ↔
    matching.given item ≠ 0 ∧ matching.held device = matching.given item := by
  simp [holds]

/-- After an item was taken over, the target holds the address of another if both items give the
same. -/
@[simp] theorem holds_take : matching.holds item (matching.take device other) =
    (matching.given item != 0 && matching.given other == matching.given item) := by
  rw [holds, matching.held_take]

/-- A target that has taken over another item does not hold the address of an item. -/
theorem Apart.holds_take (h : matching.Apart item other) :
    matching.holds item (matching.take device other) = false := by
  rw [← Bool.not_eq_true, holds_iff, matching.held_take]
  rintro ⟨hzero, heq⟩
  exact h.given hzero heq.symm

/-- A target that has taken over another item is known by the identifier of an item only if it was
before, and the other item has none. -/
theorem Apart.matchesPid_take (h : matching.Apart item other)
    (hmatch : (matching.take device other).matchesPid (matching.pid item) = true) :
    (matching.pid other).isZero = true ∧ device.matchesPid (matching.pid item) = true := by
  have hnamed := (TargetDevice.matchesPid_iff.1 hmatch).2.1
  rw [matching.matchesPid_take] at hmatch
  split at hmatch
  next hzero => exact ⟨hzero, hmatch⟩
  next => exact absurd (beq_iff_eq.1 hmatch).symm (h.pid hnamed)

/-- The target that an item is about holds its address or is known by its identifier. -/
theorem of_found (h : matching.found devices item = some place) :
    ∃ device, devices[place]? = some device ∧
      (matching.holds item device = true ∨ device.matchesPid (matching.pid item) = true) := by
  rcases Option.or_eq_some_iff.1 h with hholds | ⟨-, hpid⟩
  · obtain ⟨device, hdevice, hheld⟩ :=
      (Option.any_eq_true _ _).1 (findIdx?_eq_some_iff_any.1 hholds).1
    exact ⟨device, hdevice, .inl hheld⟩
  · obtain ⟨device, hdevice, hmatch⟩ :=
      (Option.any_eq_true _ _).1 (findIdx?_eq_some_iff_any.1 hpid).1
    exact ⟨device, hdevice, .inr hmatch⟩

/-- Nothing is found exactly if no target holds the address of the item or has its identifier. -/
theorem found_eq_none_iff : matching.found devices item = none ↔
    ∀ device ∈ devices, matching.holds item device = false ∧
      device.matchesPid (matching.pid item) = false := by
  rw [found, Option.or_eq_none_iff, List.findIdx?_eq_none_iff, List.findIdx?_eq_none_iff]
  exact ⟨fun h device hdevice ↦ ⟨h.1 device hdevice, h.2 device hdevice⟩,
    fun h ↦ ⟨fun device hdevice ↦ (h device hdevice).1, fun device hdevice ↦ (h device hdevice).2⟩⟩

/-- A target that holds the address of an item is found before those known by its identifier. -/
theorem first_place (hplace : place < matching.place devices item) :
    (devices[place]?).any (matching.holds item) = false ∧
      (matching.given item = 0 →
        (devices[place]?).any (·.matchesPid (matching.pid item)) = false) := by
  unfold Matching.place found at hplace
  cases hholds : devices.findIdx? (matching.holds item) with
  | some index =>
      rw [hholds, Option.some_or, Option.getD_some] at hplace
      obtain ⟨hany, hfirst⟩ := findIdx?_eq_some_iff_any.1 hholds
      obtain ⟨device, -, hheld⟩ := (Option.any_eq_true _ _).1 hany
      exact ⟨hfirst place hplace, fun hzero ↦ absurd hzero (holds_iff.1 hheld).1⟩
  | none =>
      refine ⟨findIdx?_eq_none_iff_any.1 hholds place, fun _ ↦ ?_⟩
      rw [hholds, Option.none_or] at hplace
      cases hpid : devices.findIdx? (·.matchesPid (matching.pid item)) with
      | some index =>
          rw [hpid, Option.getD_some] at hplace
          exact (findIdx?_eq_some_iff_any.1 hpid).2 place hplace
      | none => exact findIdx?_eq_none_iff_any.1 hpid place

/-- An item is merged into one target, and the others stay as they are. -/
theorem getElem?_merge : (matching.merge devices item)[place]? =
    if place = matching.place devices item then
      some (matching.take ((devices[place]?).getD {}) item)
    else devices[place]? := by
  unfold merge Matching.place
  cases hfound : matching.found devices item with
  | some index =>
      obtain ⟨device, hdevice, -⟩ := of_found hfound
      rw [Option.getD_some, List.getElem?_modify]
      by_cases hplace : place = index
      · subst hplace
        simp [hdevice]
      · simp [hplace, Ne.symm hplace]
  | none =>
      simp only [Option.getD_none]
      by_cases hplace : place = devices.length
      · simp [hplace]
      · rw [if_neg hplace]
        rcases Nat.lt_or_gt_of_ne hplace with hlt | hgt
        · exact List.getElem?_append_left hlt
        · rw [List.getElem?_eq_none_iff.2 (Nat.le_of_lt hgt), List.getElem?_eq_none_iff.2]
          rwa [List.length_append]

/-- The target that an item is merged into has taken it over. -/
theorem getElem?_merge_place : (matching.merge devices item)[matching.place devices item]? =
    some (matching.take ((devices[matching.place devices item]?).getD {}) item) := by
  rw [getElem?_merge, if_pos rfl]

/-- The other targets stay as they are. -/
theorem getElem?_merge_ne (h : place ≠ matching.place devices item) :
    (matching.merge devices item)[place]? = devices[place]? := by
  rw [getElem?_merge, if_neg h]

/-- A target is added exactly if none was found. -/
theorem length_merge : (matching.merge devices item).length =
    devices.length + if matching.found devices item = none then 1 else 0 := by
  unfold merge
  cases matching.found devices item <;> simp

/-- Items are merged one after the other. -/
@[simp] theorem mergeAll_cons : matching.mergeAll devices (item :: items) =
    matching.mergeAll (matching.merge devices item) items :=
  rfl

/-- Items may be merged in two portions. -/
@[simp] theorem mergeAll_append : matching.mergeAll devices (front ++ items) =
    matching.mergeAll (matching.mergeAll devices front) items :=
  List.foldl_append

/-- Every item has a place. -/
@[simp] theorem length_places : (matching.places devices items).length = items.length := by
  induction items generalizing devices with
  | nil => rfl
  | cons item items ih => rw [places, List.length_cons, List.length_cons, ih]

/-- The places of later items are those after the earlier ones were merged. -/
theorem places_append : matching.places devices (front ++ items) =
    matching.places devices front ++ matching.places (matching.mergeAll devices front) items := by
  induction front generalizing devices with
  | nil => rfl
  | cons item front ih =>
      rw [List.cons_append, places, ih]
      rfl

/-- An item is overtaken if the place of its target comes again among the later places. -/
theorem overtaken_iff : matching.Overtaken devices front item later ↔
    ∃ turn place, front.length < turn ∧
      (matching.places devices (front ++ item :: later))[front.length]? = some place ∧
      (matching.places devices (front ++ item :: later))[turn]? = some place := by
  rw [places_append, places, List.getElem?_append_right (Nat.le_of_eq length_places), length_places,
    Nat.sub_self, List.getElem?_cons_zero, Overtaken, List.mem_iff_getElem?]
  constructor
  · rintro ⟨index, hindex⟩
    refine ⟨front.length + (index + 1), _, by omega, rfl, ?_⟩
    rw [List.getElem?_append_right (by rw [length_places]; omega), length_places,
      Nat.add_sub_cancel_left, List.getElem?_cons_succ, hindex]
  · rintro ⟨turn, place, hturn, hfirst, hlater⟩
    obtain ⟨index, rfl⟩ : ∃ index, turn = front.length + (index + 1) :=
      ⟨turn - front.length - 1, by omega⟩
    rw [List.getElem?_append_right (by rw [length_places]; omega), length_places,
      Nat.add_sub_cancel_left, List.getElem?_cons_succ] at hlater
    exact ⟨index, hlater.trans hfirst.symm⟩

/-- The places are different exactly if no item is overtaken. -/
theorem nodup_places_iff : (matching.places devices items).Nodup ↔
    ∀ front item later, items = front ++ item :: later →
      ¬ matching.Overtaken devices front item later := by
  constructor
  · rintro h front item later rfl
    rw [places_append] at h
    exact (List.nodup_cons.1 (List.nodup_append.1 h).2.1).1
  · intro h
    induction items generalizing devices with
    | nil => exact List.nodup_nil
    | cons item items ih =>
        refine List.nodup_cons.2 ⟨h [] item items rfl, ih fun front other later hsplit ↦ ?_⟩
        exact h (item :: front) other later (congrArg (item :: ·) hsplit)

/-- No target is removed. -/
theorem length_le_mergeAll : devices.length ≤ (matching.mergeAll devices items).length := by
  induction items generalizing devices with
  | nil => exact Nat.le_refl _
  | cons item items ih =>
      refine Nat.le_trans ?_ ih
      rw [length_merge]
      exact Nat.le_add_right _ _

/-- A target that no item is merged into stays as it is. -/
theorem getElem?_mergeAll (h : place ∉ matching.places devices items) :
    (matching.mergeAll devices items)[place]? = devices[place]? := by
  induction items generalizing devices with
  | nil => rfl
  | cons item items ih =>
      obtain ⟨hplace, hitems⟩ := List.ne_and_not_mem_of_not_mem_cons h
      rw [mergeAll_cons, ih hitems, getElem?_merge_ne hplace]

/-- If no two items are merged into one target, then each target is as it was, or as one item makes
of it. -/
theorem kept_or_taken (h : (matching.places devices items).Nodup)
    (hdevice : devices[place]? = some device) :
    ∃ kept, (matching.mergeAll devices items)[place]? = some kept ∧
      (kept = device ∨ ∃ item ∈ items, kept = matching.take device item) := by
  induction items generalizing devices with
  | nil => exact ⟨device, hdevice, .inl rfl⟩
  | cons item items ih =>
      obtain ⟨hplace, hitems⟩ := List.nodup_cons.1 h
      by_cases hsame : place = matching.place devices item
      · subst hsame
        have hkept := getElem?_mergeAll hplace
        rw [getElem?_merge_place, hdevice] at hkept
        exact ⟨_, hkept, .inr ⟨item, List.mem_cons_self, rfl⟩⟩
      · rw [← getElem?_merge_ne hsame] at hdevice
        obtain ⟨kept, hkept, hlike⟩ := ih hitems hdevice
        refine ⟨kept, hkept, hlike.imp_right ?_⟩
        rintro ⟨other, hother, htaken⟩
        exact ⟨other, List.mem_cons_of_mem item hother, htaken⟩

/-- If no two items are merged into one target, then new targets are appended in the order of their
items. -/
theorem drop_mergeAll (h : (matching.places devices items).Nodup) :
    ∃ fresh : List Item, fresh.Sublist items ∧
      (matching.mergeAll devices items).drop devices.length = fresh.map (matching.take {}) := by
  induction items generalizing devices with
  | nil => exact ⟨[], .slnil, by simp [mergeAll]⟩
  | cons item items ih =>
      obtain ⟨hplace, hitems⟩ := List.nodup_cons.1 h
      obtain ⟨fresh, hfresh, hdrop⟩ := ih hitems
      rw [length_merge] at hdrop
      cases hfound : matching.found devices item with
      | some index =>
          exact ⟨fresh, hfresh.cons item, by simpa [hfound] using hdrop⟩
      | none =>
          have hnew : matching.place devices item = devices.length := by
            rw [Matching.place, hfound, Option.getD_none]
          have hdevice := getElem?_mergeAll hplace
          rw [getElem?_merge_place, hnew, List.getElem?_eq_none_iff.2 (Nat.le_refl _),
            Option.getD_none] at hdevice
          refine ⟨item :: fresh, hfresh.cons_cons item, ?_⟩
          rw [if_pos hfound] at hdrop
          rw [mergeAll_cons, List.drop_eq_getElem?_toList_append, hdevice, hdrop]
          rfl

/-- A target that has taken over an item with an identifier is not what another item is about. -/
theorem place_ne_of_apart (h : matching.Apart item other)
    (hpid : (matching.pid item).isZero = false)
    (hdevice : devices[place]? = some (matching.take known item)) :
    place ≠ matching.place devices other := by
  rintro rfl
  unfold Matching.place at hdevice
  cases hfound : matching.found devices other with
  | none => simp [hfound] at hdevice
  | some index =>
      obtain ⟨device, hindex, hlike⟩ := of_found hfound
      rw [hfound, Option.getD_some, hindex, Option.some.injEq] at hdevice
      subst hdevice
      -- It does not hold the address of the other item, and it is known by another identifier.
      rw [h.symm.holds_take] at hlike
      have hzero := (h.symm.matchesPid_take (hlike.resolve_left Bool.false_ne_true)).1
      rw [hpid] at hzero
      cases hzero

/-- Items that are about no target and differ from each other add a target each. -/
theorem mergeAll_of_new (h : matching.Unambiguous items)
    (hnew : ∀ item ∈ items, matching.found devices item = none) :
    matching.mergeAll devices items = devices ++ items.map (matching.take {}) := by
  induction items generalizing devices with
  | nil => exact (List.append_nil devices).symm
  | cons item items ih =>
      obtain ⟨hitem, hitems⟩ := List.pairwise_cons.1 h
      obtain ⟨hfound, hothers⟩ := List.forall_mem_cons.1 hnew
      have hmerge : matching.merge devices item = devices ++ [matching.take {} item] := by
        rw [merge, hfound]
      rw [mergeAll_cons, hmerge, ih hitems, List.append_assoc]
      · rfl
      · intro other hother
        refine found_eq_none_iff.2 fun device hdevice ↦ ?_
        rcases List.mem_append.1 hdevice with hold | hadded
        · exact found_eq_none_iff.1 (hothers other hother) device hold
        · -- A new target is known by no identifier but the one that it has just been given.
          obtain rfl := List.mem_singleton.1 hadded
          refine ⟨(hitem other hother).symm.holds_take, ?_⟩
          rw [← Bool.not_eq_true]
          intro hmatch
          exact Bool.false_ne_true ((hitem other hother).symm.matchesPid_take hmatch).2

/-- A target that has taken over an item with an identifier is not overtaken by others. -/
theorem place_not_mem_places (hpid : (matching.pid item).isZero = false)
    (hapart : ∀ other ∈ items, matching.Apart item other)
    (hdevice : devices[place]? = some (matching.take known item)) :
    place ∉ matching.places devices items := by
  induction items generalizing devices with
  | nil => exact List.not_mem_nil
  | cons other items ih =>
      obtain ⟨hother, hapart⟩ := List.forall_mem_cons.1 hapart
      have hplace := place_ne_of_apart hother hpid hdevice
      rw [← getElem?_merge_ne hplace] at hdevice
      exact List.not_mem_cons_of_ne_of_not_mem hplace (ih hapart hdevice)

/-- Items that all have identifiers are merged into different targets. -/
theorem nodup_places (h : matching.Unambiguous items)
    (hpids : ∀ item ∈ items, (matching.pid item).isZero = false) :
    (matching.places devices items).Nodup := by
  induction items generalizing devices with
  | nil => exact List.nodup_nil
  | cons item items ih =>
      obtain ⟨hitem, hitems⟩ := List.pairwise_cons.1 h
      obtain ⟨hpid, hpids⟩ := List.forall_mem_cons.1 hpids
      exact List.nodup_cons.2
        ⟨place_not_mem_places hpid hitem getElem?_merge_place, ih hitems hpids⟩

/-- An item that was merged is about the target that it was merged into. -/
theorem found_merge (h : matching.Named item) :
    matching.found (matching.merge devices item) item = some (matching.place devices item) := by
  have hbefore {place : Nat} (hplace : place < matching.place devices item) :
      (matching.merge devices item)[place]? = devices[place]? :=
    getElem?_merge_ne (Nat.ne_of_lt hplace)
  by_cases hzero : matching.given item = 0
  · -- No target holds the address zero, so the item is found by its identifier.
    have hpid := h.resolve_left (not_not_intro hzero)
    have hnone (device : TargetDevice) : matching.holds item device = false := by
      simp [holds, hzero]
    refine Option.or_eq_some_iff.2 (.inr ⟨List.findIdx?_eq_none_iff.2 fun device _ ↦ hnone device,
      findIdx?_eq_some_iff_any.2 ⟨?_, fun place hplace ↦ ?_⟩⟩)
    · rw [getElem?_merge_place, Option.any_some, matching.matchesPid_take, hpid]
      exact beq_self_eq_true _
    · rw [hbefore hplace]
      exact (first_place hplace).2 hzero
  · refine Option.or_eq_some_iff.2 (.inl (findIdx?_eq_some_iff_any.2 ⟨?_, fun place hplace ↦ ?_⟩))
    · rw [getElem?_merge_place, Option.any_some, holds_take]
      simp [hzero]
    · rw [hbefore hplace]
      exact (first_place hplace).1

/-- Where a target is selected after an item has been merged, one was before, if those that have
taken over the item are selected only if they were before. -/
theorem any_of_any_merge {select : TargetDevice → Bool} {index : Nat}
    (hselect : ∀ known : Option TargetDevice,
      select (matching.take (known.getD {}) other) = true → known.any select = true)
    (hany : ((matching.merge devices other)[index]?).any select = true) :
    (devices[index]?).any select = true := by
  rw [getElem?_merge] at hany
  split at hany
  · exact hselect _ hany
  · exact hany

/-- An item is still about a target when another one has been merged into a different target. -/
theorem found_merge_of_apart (h : matching.Apart item other)
    (hfound : matching.found devices item = some place)
    (hplace : place ≠ matching.place devices other) :
    matching.found (matching.merge devices other) item = some place := by
  have hholds (index : Nat) :
      ((matching.merge devices other)[index]?).any (matching.holds item) = true →
        (devices[index]?).any (matching.holds item) = true :=
    any_of_any_merge fun known htake ↦
      absurd (h.holds_take.symm.trans htake) Bool.false_ne_true
  have hpids (index : Nat) :
      ((matching.merge devices other)[index]?).any (·.matchesPid (matching.pid item)) = true →
        (devices[index]?).any (·.matchesPid (matching.pid item)) = true := by
    refine any_of_any_merge fun known htake ↦ ?_
    have hmatch := (h.matchesPid_take htake).2
    cases known with
    | none => exact hmatch
    | some device => exact hmatch
  have hkept : (matching.merge devices other)[place]? = devices[place]? := getElem?_merge_ne hplace
  rcases Option.or_eq_some_iff.1 hfound with hheld | ⟨hnone, hpid⟩
  · refine Option.or_eq_some_iff.2 (.inl (findIdx?_of_any hheld ?_ hholds))
    rw [hkept]
    exact (findIdx?_eq_some_iff_any.1 hheld).1
  · refine Option.or_eq_some_iff.2 (.inr ⟨findIdx?_eq_none_iff_any.2 fun index ↦ ?_,
      findIdx?_of_any hpid ?_ hpids⟩)
    · rw [← Bool.not_eq_true]
      intro hany
      have hunheld := findIdx?_eq_none_iff_any.1 hnone index
      exact Bool.false_ne_true (hunheld.symm.trans (hholds index hany))
    · rw [hkept]
      exact (findIdx?_eq_some_iff_any.1 hpid).1

/-- What an item is about is still found there, if the items merged meanwhile are others and spare
the place. -/
theorem found_mergeAll (hapart : ∀ other ∈ items, matching.Apart item other)
    (hfound : matching.found devices item = some place)
    (hplace : place ∉ matching.places devices items) :
    matching.found (matching.mergeAll devices items) item = some place := by
  induction items generalizing devices with
  | nil => exact hfound
  | cons other items ih =>
      obtain ⟨hother, hapart⟩ := List.forall_mem_cons.1 hapart
      obtain ⟨hne, hplace⟩ := List.ne_and_not_mem_of_not_mem_cons hplace
      exact ih hapart (found_merge_of_apart hother hfound hne) hplace

/-- An item of several differs from those after it. -/
theorem Unambiguous.apart_later (h : matching.Unambiguous (front ++ item :: later)) :
    ∀ other ∈ later, matching.Apart item other :=
  (List.pairwise_cons.1 (List.pairwise_append.1 h).2.1).1

/-- An item of several differs from those before it. -/
theorem Unambiguous.apart_front (h : matching.Unambiguous (front ++ item :: later)) :
    ∀ other ∈ front, matching.Apart item other :=
  fun other hother ↦ ((List.pairwise_append.1 h).2.2 other hother item List.mem_cons_self).symm

/-- When all items have been merged, an item whose target was not overtaken agrees with what is
known of it. -/
theorem agrees_of_not_overtaken (hitems : matching.Unambiguous (front ++ item :: later))
    (hnamed : matching.Named item) (h : ¬ matching.Overtaken devices front item later) :
    matching.Agrees (matching.mergeAll devices (front ++ item :: later)) item := by
  have hdevice := getElem?_mergeAll h
  rw [getElem?_merge_place] at hdevice
  rw [mergeAll_append, mergeAll_cons]
  exact ⟨_, _, found_mergeAll hitems.apart_later (found_merge hnamed) h, hdevice,
    matching.take_take _ item⟩

/-- Only an item without an identifier is overtaken. -/
theorem Overtaken.isZero (hitems : matching.Unambiguous (front ++ item :: later))
    (h : matching.Overtaken devices front item later) : (matching.pid item).isZero = true := by
  rw [← Bool.not_eq_false]
  intro hpid
  exact place_not_mem_places hpid hitems.apart_later getElem?_merge_place h

/-- Items that agree with what is known change nothing. -/
theorem mergeAll_of_agrees (h : ∀ item ∈ items, matching.Agrees devices item) :
    matching.mergeAll devices items = devices := by
  induction items with
  | nil => rfl
  | cons item items ih =>
      obtain ⟨⟨place, device, hfound, hdevice, htake⟩, hitems⟩ := List.forall_mem_cons.1 h
      have hmerge : matching.merge devices item = devices := by
        refine List.ext_getElem? fun index ↦ ?_
        rw [getElem?_merge, Matching.place, hfound, Option.getD_some]
        split
        next heq => rw [heq, hdevice, Option.getD_some, htake]
        next => rfl
      rw [mergeAll_cons, hmerge, ih hitems]

/-- No target comes to hold an address that is not given. -/
theorem all_held_mergeAll (hgiven : ∀ item ∈ items, matching.given item ≠ address)
    (h : (devices[place]?).all (matching.held · != address) = true) :
    ((matching.mergeAll devices items)[place]?).all (matching.held · != address) = true := by
  induction items generalizing devices with
  | nil => exact h
  | cons item items ih =>
      obtain ⟨hitem, hgiven⟩ := List.forall_mem_cons.1 hgiven
      refine ih hgiven ?_
      rw [getElem?_merge]
      split
      · rw [Option.all_some, matching.held_take]
        exact bne_iff_ne.2 hitem
      · exact h

/-- A target that an item was merged into holds an address that is given. -/
theorem all_held_of_mem_places (hgiven : ∀ item ∈ items, matching.given item ≠ address)
    (hplace : place ∈ matching.places devices items) :
    ((matching.mergeAll devices items)[place]?).all (matching.held · != address) = true := by
  induction items generalizing devices with
  | nil => cases hplace
  | cons item items ih =>
      obtain ⟨hitem, hgiven⟩ := List.forall_mem_cons.1 hgiven
      rcases List.mem_cons.1 hplace with rfl | hplace
      · rw [mergeAll_cons]
        refine all_held_mergeAll hgiven ?_
        rw [getElem?_merge_place, Option.all_some, matching.held_take]
        exact bne_iff_ne.2 hitem
      · exact ih hgiven hplace

/-- An item that was overtaken gives an address. -/
theorem Overtaken.given_ne_zero (hitems : matching.Unambiguous (front ++ item :: later))
    (hnamed : matching.Named item) (h : matching.Overtaken devices front item later) :
    matching.given item ≠ 0 :=
  hnamed.resolve_right fun hpid ↦ Bool.false_ne_true (hpid.symm.trans (h.isZero hitems))

/-- No later item gives the address of one that was overtaken. -/
theorem Overtaken.given_later (hitems : matching.Unambiguous (front ++ item :: later))
    (hnamed : matching.Named item) (h : matching.Overtaken devices front item later) :
    ∀ other ∈ later, matching.given other ≠ matching.given item :=
  fun other hother ↦
    ((hitems.apart_later other hother).given (h.given_ne_zero hitems hnamed)).symm

/-- Of items that change nothing none is overtaken. -/
theorem not_overtaken_of_mergeAll_eq_self
    (hitems : matching.Unambiguous (front ++ item :: later)) (hnamed : matching.Named item)
    (h : matching.mergeAll devices (front ++ item :: later) = devices) :
    ¬ matching.Overtaken devices front item later := by
  intro hover
  have hzero := hover.isZero hitems
  have hfront (other : Item) (hother : other ∈ front) :
      matching.given other ≠ matching.given item :=
    ((hitems.apart_front other hother).given (hover.given_ne_zero hitems hnamed)).symm
  rw [mergeAll_append, mergeAll_cons] at h
  -- A later item leaves the target without the address of this one. So it did not hold it before,
  -- and could only have been found by the identifier that this item does not have.
  have hlost := all_held_of_mem_places (hover.given_later hitems hnamed) hover
  rw [h] at hlost
  have hlost := all_held_mergeAll hfront hlost
  cases hfound : matching.found (matching.mergeAll devices front) item with
  | none =>
      have hfewer : devices.length ≤ (matching.mergeAll devices front).length := length_le_mergeAll
      have hmore : (matching.merge (matching.mergeAll devices front) item).length ≤
          (matching.mergeAll
            (matching.merge (matching.mergeAll devices front) item) later).length :=
        length_le_mergeAll
      rw [h, length_merge, if_pos hfound] at hmore
      omega
  | some index =>
      obtain ⟨device, hdevice, hlike⟩ := of_found hfound
      rw [Matching.place, hfound, Option.getD_some, hdevice, Option.all_some, bne_iff_ne] at hlost
      rcases hlike with hholds | hmatch
      · exact hlost (holds_iff.1 hholds).2
      · rw [(TargetDevice.matchesPid_iff.1 hmatch).2.1] at hzero
        cases hzero

/-- Items change nothing exactly if each of them agrees with what is known. -/
theorem mergeAll_eq_self_iff (hitems : matching.Unambiguous items)
    (hnamed : ∀ item ∈ items, matching.Named item) :
    matching.mergeAll devices items = devices ↔ ∀ item ∈ items, matching.Agrees devices item := by
  refine ⟨fun h item hitem ↦ ?_, mergeAll_of_agrees⟩
  obtain ⟨front, later, rfl⟩ := List.append_of_mem hitem
  have hagrees := agrees_of_not_overtaken hitems (hnamed item hitem)
    (not_overtaken_of_mergeAll_eq_self hitems (hnamed item hitem) h)
  rwa [h] at hagrees

/-- When all items have been merged, an item that was overtaken does not agree with what is known if
no other target held the address that it gives. -/
theorem not_agrees_of_overtaken (hitems : matching.Unambiguous (front ++ item :: later))
    (hnamed : matching.Named item)
    (honly : ∀ place, place ≠ matching.place (matching.mergeAll devices front) item →
      ((matching.merge (matching.mergeAll devices front) item)[place]?).all
        (matching.held · != matching.given item) = true)
    (h : matching.Overtaken devices front item later) :
    ¬ matching.Agrees (matching.mergeAll devices (front ++ item :: later)) item := by
  rintro ⟨place, -, hfound, -⟩
  have hlater := h.given_later hitems hnamed
  obtain ⟨device, hdevice, hlike⟩ := of_found hfound
  have hlost : (matching.held device != matching.given item) = true := by
    rw [mergeAll_append, mergeAll_cons] at hdevice
    by_cases hplace : place = matching.place (matching.mergeAll devices front) item
    · have hlost := all_held_of_mem_places hlater h
      rwa [← hplace, hdevice] at hlost
    · have hlost := all_held_mergeAll hlater (honly place hplace)
      rwa [hdevice] at hlost
  rcases hlike with hholds | hmatch
  · exact bne_iff_ne.1 hlost (holds_iff.1 hholds).2
  · have hzero := h.isZero hitems
    rw [(TargetDevice.matchesPid_iff.1 hmatch).2.1] at hzero
    cases hzero

end Matching

end I3cHost
