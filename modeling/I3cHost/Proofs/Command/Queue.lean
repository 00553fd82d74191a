import Mathlib.Data.List.Nodup
import I3cHost.Command.Queue
import I3cHost.Proofs.Tracker.Progress

/-!
# Handing callbacks over and taking them back

The requests of a batch follow the commands one by one, under consecutive identifiers that wrap
around. Withdrawing the batch undoes handing it over exactly if its identifiers are distinct and
the last request that waits under each of them still has the callback of the command.
-/

namespace I3cHost

namespace Tracker

variable {κ : Type} {tracker : Tracker κ} {batch : Array (TrackedRequest κ)} {first : UInt16}
  {count : Nat}

/-- Whether a request is withdrawn with a batch. -/
def belongs (first : UInt16) (count : Nat) (request : TrackedRequest κ) : Bool :=
  request.isPending && inBatch first count request.id

/-- Withdrawing parts the requests that belong to the batch from the others. -/
theorem withdraw_eq (tracker : Tracker κ) (first : UInt16) (count : Nat) :
    tracker.withdraw first count =
      (tracker.requests.filter (belongs first count),
        { tracker with requests := tracker.requests.filter (!belongs first count ·) }) :=
  rfl

/-- Every request is withdrawn or stays tracked. -/
theorem countOf_withdraw (kind : UInt16 → Bool → κ → Bool) (tracker : Tracker κ) (first : UInt16)
    (count : Nat) : countOf kind tracker.requests.toList =
      countOf kind (tracker.withdraw first count).1.toList +
        countOf kind (tracker.withdraw first count).2.requests.toList := by
  rw [withdraw_eq, Array.toList_filter, Array.toList_filter, ← countOf_filter]

/-- Withdrawing what was tracked last leaves what was tracked before, provided nothing of that
belongs to the batch. -/
theorem withdraw_track
    (htracked : ∀ request ∈ tracker.requests, belongs first count request = false)
    (hbatch : ∀ request ∈ batch, belongs first count request = true) :
    ((tracker.track batch).withdraw first count).2 = tracker := by
  have hkept : (tracker.requests ++ batch).filter (!belongs first count ·) = tracker.requests := by
    apply Array.toList_inj.1
    rw [Array.toList_filter, Array.toList_append, List.filter_append,
      List.filter_eq_self.2 (by simpa using htracked),
      List.filter_eq_nil_iff.2 (by simpa using hbatch), List.append_nil]
  rw [withdraw_eq, track, hkept]

/-- The requests of a batch wait behind those that wait already. -/
theorem waitingUnder_track (id : UInt16) : (tracker.track batch).waitingUnder id =
    tracker.waitingUnder id ++ batch.toList.filter fun request ↦
      request.id == id && request.isPending := by
  rw [waitingUnder, track, Array.toList_append, List.filter_append]
  rfl

/-- Of the requests under an identifier of the batch exactly those that wait are withdrawn. -/
theorem filter_withdraw {id : UInt16} (h : inBatch first count id = true) :
    ((tracker.withdraw first count).1.toList.filter fun request ↦ request.id == id) =
      tracker.waitingUnder id := by
  rw [withdraw_eq, Array.toList_filter, List.filter_filter]
  refine List.filter_congr fun request _ ↦ ?_
  by_cases hid : request.id = id
  · simp [belongs, hid, h]
  · rw [beq_false_of_ne hid, Bool.false_and, Bool.false_and]

end Tracker

namespace CommandQueue

variable {κ : Type} {queue : CommandQueue κ} {first : UInt16} {dependent : Bool}

/-- A queue that came about by appending commands, all of which were accepted. -/
inductive Built : CommandQueue κ → Prop
  | first {command : Command κ} {queue : CommandQueue κ} (h : push {} command = .ok queue) :
      Built queue
  | next {queue next : CommandQueue κ} {command : Command κ} (hqueue : Built queue)
      (h : queue.push command = .ok next) : Built next

/-- A command that is accepted has no fault of its own. -/
theorem fault?_eq_none_of_push {command : Command κ} {next : CommandQueue κ}
    (h : queue.push command = .ok next) : command.fault? = none := by
  have hqueue := (push_eq_ok_iff.1 h).1
  unfold fault? at hqueue
  cases hfault : command.fault? with
  | none => rfl
  | some fault => simp [hfault] at hqueue

/-- A command that has just been accepted would be accepted again. -/
theorem fault?_append {command : Command κ} (h : queue.fault? command = none) :
    (queue.append command).fault? command = none := by
  have hcommand : command.fault? = none := by
    unfold fault? at h
    split at h
    · cases h
    · assumption
  unfold fault?
  rw [hcommand]
  dsimp only
  -- A target reset pattern may follow a target reset pattern.
  refine if_neg fun hmisplaced ↦ ?_
  have hadmits : (queue.append command).admitsResetPattern = command.admitsResetPattern := by
    simp [append, admitsResetPattern]
  rw [hadmits, Command.admitsResetPattern, hmisplaced.1] at hmisplaced
  cases hmisplaced.2

/-- A queue that was built holds at least one command. -/
theorem Built.isEmpty_eq_false (h : Built queue) : queue.isEmpty = false := by
  cases h with
  | first h => simp [(push_eq_ok_iff.1 h).2, append, isEmpty]
  | next hqueue h => simp [(push_eq_ok_iff.1 h).2, append, isEmpty]

/-- Nothing is wrong with any command of a queue that was built. -/
theorem Built.fault?_eq_none (h : Built queue) :
    ∀ command ∈ queue.commands, command.fault? = none := by
  induction h with
  | first h =>
      have hcommand := fault?_eq_none_of_push h
      obtain ⟨-, rfl⟩ := push_eq_ok_iff.1 h
      simpa [append] using hcommand
  | next hqueue h ih =>
      have hcommand := fault?_eq_none_of_push h
      obtain ⟨-, rfl⟩ := push_eq_ok_iff.1 h
      intro other hother
      rcases Array.mem_push.1 hother with hbefore | rfl
      · exact ih other hbefore
      · exact hcommand

/-- Identifiers wrap around. -/
theorem toNat_idAt (first : UInt16) (index : Nat) :
    (idAt first index).toNat = (first.toNat + index) % 65536 := by
  simp [idAt, UInt16.toNat_add]

/-- The position of a command in a batch is found by its identifier, as far as that goes. -/
theorem toNat_idAt_sub (first : UInt16) (index : Nat) :
    (idAt first index - first).toNat = index % 65536 := by
  have hcancel : idAt first index - first = UInt16.ofNat index := by
    rw [idAt, UInt16.add_comm, UInt16.add_sub_cancel]
  rw [hcancel, UInt16.toNat_ofNat']

/-- An identifier is found again from its position in the batch. -/
theorem idAt_toNat_sub (first id : UInt16) : idAt first (id - first).toNat = id := by
  rw [idAt, UInt16.ofNat_toNat, UInt16.add_comm, UInt16.sub_add_cancel]

/-- As long as identifiers do not repeat, an identifier points to the position that has it. -/
theorem toNat_sub_eq_iff {id : UInt16} {index : Nat} (hindex : index < 65536) :
    (id - first).toNat = index ↔ id = idAt first index := by
  constructor
  · rintro rfl
    exact (idAt_toNat_sub first id).symm
  · rintro rfl
    rw [toNat_idAt_sub, Nat.mod_eq_of_lt hindex]

/-- Exactly the identifiers of the commands are in the batch. -/
theorem mem_ids_iff {id : UInt16} :
    id ∈ queue.ids first ↔ Tracker.inBatch first queue.size id = true := by
  simp only [ids, List.mem_map, List.mem_range, Tracker.inBatch, decide_eq_true_iff]
  constructor
  · rintro ⟨index, hindex, rfl⟩
    rw [toNat_idAt_sub]
    exact Nat.lt_of_le_of_lt (Nat.mod_le _ _) hindex
  · exact fun hbatch ↦ ⟨_, hbatch, idAt_toNat_sub first id⟩

/-- The request that is tracked for a command. -/
def requestAt (first : UInt16) (dependent : Bool) (index : Nat) (callback : κ) :
    TrackedRequest κ where
  id := idAt first index
  dependent := dependentAt dependent index
  callback

/-- Every command holds a callback. -/
def HoldsCallbacks (queue : CommandQueue κ) : Prop :=
  ∀ command ∈ queue.commands, command.callback.isSome

/-- Every command has a callback to hand over. -/
theorem HoldsCallbacks.exists_callback (h : queue.HoldsCallbacks) {index : Nat}
    {command : Command κ} (hcommand : queue.commands[index]? = some command) :
    ∃ callback, command.callback = some callback :=
  Option.isSome_iff_exists.1 (h command (Array.mem_of_getElem? hcommand))

/-- No command without a callback is found exactly if each holds one. -/
theorem withoutCallback?_eq_none_iff : queue.withoutCallback? = none ↔ queue.HoldsCallbacks := by
  simp [withoutCallback?, HoldsCallbacks, Option.isSome_iff_ne_none]

/-- Dropping what is missing from a list in which nothing is missing changes nothing. -/
theorem map_some_filterMap_id {α : Type} {items : List (Option α)}
    (h : ∀ item ∈ items, item.isSome) : (items.filterMap id).map some = items := by
  induction items with
  | nil => rfl
  | cons item items ih =>
      obtain ⟨value, rfl⟩ := Option.isSome_iff_exists.1 (h item List.mem_cons_self)
      have hitems := ih fun other hother ↦ h other (List.mem_cons_of_mem _ hother)
      simpa using hitems

/-- If every command holds a callback, one request is handed over for each. -/
theorem map_some_handOver (h : queue.HoldsCallbacks) (first : UInt16) (dependent : Bool) :
    (queue.handOver first dependent).1.toList.map some = queue.commands.toList.mapIdx
      fun index command ↦ command.callback.map (requestAt first dependent index) := by
  rw [← Array.toList_mapIdx]
  unfold handOver
  rw [Array.toList_filterMap]
  apply map_some_filterMap_id
  intro item hitem
  obtain ⟨index, hindex, rfl⟩ := Array.mem_mapIdx.1 (Array.mem_toList_iff.1 hitem)
  simpa using h _ (Array.getElem_mem hindex)

/-- The request that is handed over for a command is found at the position of the command. -/
theorem getElem?_handOver (h : queue.HoldsCallbacks) (index : Nat) :
    (queue.handOver first dependent).1[index]? = queue.commands[index]?.bind
      fun command ↦ command.callback.map (requestAt first dependent index) := by
  have hsome := congrArg (·[index]?) (map_some_handOver h first dependent)
  simp only [List.getElem?_map, List.getElem?_mapIdx, Array.getElem?_toList] at hsome
  cases hcommand : queue.commands[index]? with
  | none => simpa [hcommand] using hsome
  | some command =>
      obtain ⟨callback, hcallback⟩ := h.exists_callback hcommand
      simpa [hcommand, hcallback] using hsome

/-- There is one request for each command. -/
theorem size_handOver (h : queue.HoldsCallbacks) (first : UInt16) (dependent : Bool) :
    (queue.handOver first dependent).1.size = queue.size := by
  have hlength := congrArg List.length
    (map_some_handOver h first dependent)
  simpa [size] using hlength

/-- A command that is there has a position within the queue. -/
theorem index_lt_of_getElem? {index : Nat} {command : Command κ}
    (hcommand : queue.commands[index]? = some command) : index < queue.size :=
  (Array.getElem?_eq_some_iff.1 hcommand).1

/-- Every request that is handed over waits for its answer, belongs to one command and carries its
callback. -/
theorem mem_handOver (h : queue.HoldsCallbacks) (first : UInt16) (dependent : Bool)
    {request : TrackedRequest κ} :
    request ∈ (queue.handOver first dependent).1 ↔ ∃ index command callback,
      queue.commands[index]? = some command ∧ command.callback = some callback ∧
        request = requestAt first dependent index callback := by
  simp only [Array.mem_iff_getElem?, getElem?_handOver h, Option.bind_eq_some_iff,
    Option.map_eq_some_iff]
  constructor
  · rintro ⟨index, command, hcommand, callback, hcallback, rfl⟩
    exact ⟨index, command, callback, hcommand, hcallback, rfl⟩
  · rintro ⟨index, command, callback, hcommand, hcallback, rfl⟩
    exact ⟨index, command, hcommand, callback, hcallback, rfl⟩

/-- The requests of a batch wait, and their identifiers are in the batch. -/
theorem belongs_of_mem_handOver (h : queue.HoldsCallbacks) {request : TrackedRequest κ}
    (hmem : request ∈ (queue.handOver first dependent).1) :
    Tracker.belongs first queue.size request = true := by
  obtain ⟨index, command, callback, hcommand, -, rfl⟩ := (mem_handOver h first dependent).1 hmem
  refine Bool.and_eq_true_iff.2 ⟨rfl, mem_ids_iff.1 ?_⟩
  exact List.mem_map.2 ⟨index, List.mem_range.2 (index_lt_of_getElem? hcommand), rfl⟩

/-- In a batch of distinct identifiers the requests are distinct. -/
theorem nodup_handOver (h : queue.HoldsCallbacks) (hsize : queue.size ≤ 65536) (first : UInt16)
    (dependent : Bool) : (queue.handOver first dependent).1.toList.Nodup := by
  rw [List.nodup_iff_getElem?_ne_getElem?]
  intro left right hlt hright hsame
  rw [Array.length_toList, size_handOver h] at hright
  simp only [Array.getElem?_toList, getElem?_handOver h] at hsame
  have hcommand (index : Nat) (hindex : index < queue.size) : ∃ command callback,
      queue.commands[index]? = some command ∧ command.callback = some callback := by
    have hcommand := Array.getElem?_eq_getElem hindex
    obtain ⟨callback, hcallback⟩ := h.exists_callback hcommand
    exact ⟨_, callback, hcommand, hcallback⟩
  obtain ⟨_, leftCallback, hleftCommand, hleftCallback⟩ := hcommand left (by omega)
  obtain ⟨_, rightCallback, hrightCommand, hrightCallback⟩ := hcommand right hright
  have hid : (idAt first left - first).toNat = (idAt first right - first).toNat := by
    simp only [hleftCommand, hrightCommand, Option.bind_some, hleftCallback, hrightCallback,
      Option.map_some, Option.some.injEq] at hsame
    exact congrArg (fun request ↦ (request.id - first).toNat) hsame
  rw [toNat_idAt_sub, toNat_idAt_sub] at hid
  omega

/-- Handing callbacks over removes no command. -/
@[simp] theorem size_keptQueue (queue : CommandQueue κ) (first : UInt16) (dependent : Bool) :
    (queue.handOver first dependent).2.size = queue.size := by
  simp [handOver, size]

/-- Of a batch of distinct identifiers exactly one request has the identifier of a command. -/
theorem filter_handOver (h : queue.HoldsCallbacks) (hsize : queue.size ≤ 65536) {index : Nat}
    {command : Command κ} {callback : κ} (hcommand : queue.commands[index]? = some command)
    (hcallback : command.callback = some callback) :
    ((queue.handOver first dependent).1.toList.filter fun request ↦
      request.id == idAt first index && request.isPending) =
        [requestAt first dependent index callback] := by
  have hindex := index_lt_of_getElem? hcommand
  have hnodup := nodup_handOver h hsize first dependent
  refine List.perm_singleton.1 ((List.perm_ext_iff_of_nodup (hnodup.filter _)
    (List.nodup_singleton _)).2 fun request ↦ ?_)
  rw [List.mem_filter, Array.mem_toList_iff, mem_handOver h, List.mem_singleton]
  constructor
  · rintro ⟨⟨place, other, its, hother, hits, rfl⟩, hselected⟩
    have hplace := index_lt_of_getElem? hother
    have hid : idAt first place = idAt first index := by
      simpa [requestAt] using (Bool.and_eq_true_iff.1 hselected).1
    have hposition := (toNat_sub_eq_iff (by omega)).2 hid
    rw [toNat_idAt_sub] at hposition
    obtain rfl : place = index := by omega
    obtain rfl := Option.some.inj (hother.symm.trans hcommand)
    rw [Option.some.inj (hits.symm.trans hcallback)]
  · rintro rfl
    exact ⟨⟨index, command, callback, hcommand, hcallback, rfl⟩, by
      simp [requestAt, TrackedRequest.isPending]⟩

/-- The callback that the command at a position takes back: that of the last withdrawn request
whose identifier points to the position. -/
def regained (first : UInt16) (withdrawn : List (TrackedRequest κ)) (index : Nat) : Option κ :=
  (withdrawn.filter fun request ↦ (request.id - first).toNat == index).getLast?.map (·.callback)

/-- Commands stay as they are, except that they take back what belongs to them. -/
theorem getElem?_takeBack (queue : CommandQueue κ) (first : UInt16)
    (withdrawn : Array (TrackedRequest κ)) (index : Nat) :
    (queue.takeBack first withdrawn).commands[index]? = queue.commands[index]?.map fun command ↦
      { command with
        callback := (regained first withdrawn.toList index).or command.callback } := by
  rw [takeBack, ← Array.foldl_toList]
  generalize withdrawn.toList = withdrawn
  generalize queue.commands = commands
  induction withdrawn generalizing commands with
  | nil => simp [regained]
  | cons request withdrawn ih =>
      rw [List.foldl_cons, ih, Array.getElem?_modify]
      unfold regained
      -- A later request for the same position takes precedence.
      by_cases hindex : (request.id - first).toNat = index
      · cases hlast : (withdrawn.filter _).getLast? with
        | none => simp [hindex, hlast, List.getLast?_cons, Function.comp_def]
        | some last => simp [hindex, hlast, List.getLast?_cons, Function.comp_def]
      · simp [hindex]

/-- Taking callbacks back undoes handing them over exactly if each command gets its own. -/
theorem takeBack_handOver_eq_iff (first : UInt16) (dependent : Bool)
    (withdrawn : Array (TrackedRequest κ)) :
    (queue.handOver first dependent).2.takeBack first withdrawn = queue ↔
      ∀ index command, queue.commands[index]? = some command →
        regained first withdrawn.toList index = command.callback := by
  have hback (index : Nat) := getElem?_takeBack (queue.handOver first dependent).2 first withdrawn
    index
  constructor
  · intro hundone index command hcommand
    have hcallback := hback index
    rw [hundone, hcommand] at hcallback
    simp only [handOver, Array.getElem?_map, hcommand, Option.map_some, Option.or_none,
      Option.some.injEq] at hcallback
    rw [hcallback]
  · intro hregained
    refine congrArg CommandQueue.mk (Array.ext_getElem? fun index ↦ ?_)
    refine (hback index).trans ?_
    cases hcommand : queue.commands[index]? with
    | none => simp [handOver, hcommand]
    | some command => simp [handOver, hcommand, hregained index command hcommand]

/-- Withdrawing a batch undoes handing it over exactly if its identifiers are distinct, and the
last request that waits under each of them has the callback of the command. -/
theorem takeBack_withdraw_eq_iff (h : queue.HoldsCallbacks) (first : UInt16) (dependent : Bool)
    (tracker : Tracker κ) :
    (queue.handOver first dependent).2.takeBack first
        (tracker.withdraw first queue.size).1 = queue ↔
      queue.size ≤ 65536 ∧ ∀ index command, queue.commands[index]? = some command →
        (tracker.waitingUnder (idAt first index)).getLast?.map (·.callback) =
          command.callback := by
  rw [takeBack_handOver_eq_iff]
  have hregained (index : Nat) (hindex : index < queue.size) (hsize : queue.size ≤ 65536) :
      regained first (tracker.withdraw first queue.size).1.toList index =
        (tracker.waitingUnder (idAt first index)).getLast?.map (·.callback) := by
    have hbatch : Tracker.inBatch first queue.size (idAt first index) = true := by
      rw [Tracker.inBatch, toNat_idAt_sub, decide_eq_true_iff]
      omega
    rw [← Tracker.filter_withdraw hbatch, regained]
    congr 3
    funext request
    rw [Bool.eq_iff_iff, beq_iff_eq, beq_iff_eq]
    exact toNat_sub_eq_iff (by omega)
  constructor
  · intro hback
    have hsize : queue.size ≤ 65536 := by
      -- No identifier points to a position further back.
      refine Nat.le_of_not_lt fun hlarge ↦ ?_
      have hcommand := Array.getElem?_eq_getElem hlarge
      have hnone : regained first (tracker.withdraw first queue.size).1.toList 65536 = none := by
        rw [regained, List.filter_eq_nil_iff.2]
        · rfl
        · intro request _
          have hbound := (request.id - first).toNat_lt
          simp only [beq_iff_eq]
          omega
      obtain ⟨callback, hcallback⟩ := h.exists_callback hcommand
      have hlost := hback 65536 _ hcommand
      rw [hnone, hcallback] at hlost
      cases hlost
    refine ⟨hsize, fun index command hcommand ↦ ?_⟩
    rw [← hregained index (index_lt_of_getElem? hcommand) hsize]
    exact hback index command hcommand
  · rintro ⟨hsize, hlast⟩ index command hcommand
    rw [hregained index (index_lt_of_getElem? hcommand) hsize]
    exact hlast index command hcommand

/-- Callbacks that commands take back come from the withdrawn requests. -/
theorem callback_takeBack {allowed : κ → Prop} (first : UInt16)
    {withdrawn : Array (TrackedRequest κ)}
    (hqueue : ∀ command ∈ queue.commands, ∀ hook ∈ command.callback, allowed hook)
    (hwithdrawn : ∀ request ∈ withdrawn, allowed request.callback) :
    ∀ command ∈ (queue.takeBack first withdrawn).commands, ∀ hook ∈ command.callback,
      allowed hook := by
  intro command hcommand hook hhook
  obtain ⟨index, hindex⟩ := Array.mem_iff_getElem?.1 hcommand
  rw [getElem?_takeBack, Option.map_eq_some_iff] at hindex
  obtain ⟨original, horiginal, rfl⟩ := hindex
  rcases Option.or_eq_some_iff.1 hhook with hregained | ⟨-, hkept⟩
  · unfold regained at hregained
    obtain ⟨request, hrequest, rfl⟩ := Option.map_eq_some_iff.1 hregained
    have hmem := (List.mem_filter.1 (List.mem_of_getLast? hrequest)).1
    exact hwithdrawn request (Array.mem_toList_iff.1 hmem)
  · exact hqueue original (Array.mem_of_getElem? horiginal) hook hkept

/-- The requests of a batch wait for their answers. -/
theorem isPending_handOver (queue : CommandQueue κ) (first : UInt16) (dependent : Bool) :
    ∀ request ∈ (queue.handOver first dependent).1, request.isPending = true := by
  intro request hrequest
  simp only [handOver, Array.mem_filterMap, Array.mem_mapIdx, id] at hrequest
  obtain ⟨_, ⟨index, hindex, rfl⟩, hsome⟩ := hrequest
  obtain ⟨callback, -, rfl⟩ := Option.map_eq_some_iff.1 hsome
  rfl

/-- The requests of a batch have the callbacks of the commands. -/
theorem callback_handOver {allowed : κ → Prop} (first : UInt16) (dependent : Bool)
    (hqueue : ∀ command ∈ queue.commands, ∀ hook ∈ command.callback, allowed hook) :
    ∀ request ∈ (queue.handOver first dependent).1, allowed request.callback := by
  intro request hrequest
  simp only [handOver, Array.mem_filterMap, Array.mem_mapIdx, id] at hrequest
  obtain ⟨_, ⟨index, hindex, rfl⟩, hsome⟩ := hrequest
  obtain ⟨callback, hcallback, rfl⟩ := Option.map_eq_some_iff.1 hsome
  exact hqueue _ (Array.getElem_mem hindex) callback hcallback

/-- The requests of a batch wait. -/
theorem response_handOver (queue : CommandQueue κ) (first : UInt16) (dependent : Bool) :
    ∀ request ∈ (queue.handOver first dependent).1, request.response = none := by
  intro request hrequest
  simp only [handOver, Array.mem_filterMap, Array.mem_mapIdx, id] at hrequest
  obtain ⟨_, ⟨index, hindex, rfl⟩, hsome⟩ := hrequest
  obtain ⟨callback, -, rfl⟩ := Option.map_eq_some_iff.1 hsome
  rfl

end CommandQueue

end I3cHost
