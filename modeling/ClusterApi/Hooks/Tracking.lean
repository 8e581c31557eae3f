import ClusterApi.Lib.GoStrings
import ClusterApi.Lib.Trace

/-!
# The lifecycle hooks an object waits for

`internal/hooks/tracking.go` records on an object which lifecycle hooks are still to be called:
the annotation `runtime.cluster.x-k8s.io/pending-hooks` lists their names, comma separated.
`MarkObjectAsPending` adds hooks and says whether the annotation changed, `MarkAsDone` removes one
and drops the annotation when none is left, `IsPending` reads it, and `MarkAsOkToDelete` sets
`runtime.cluster.x-k8s.io/ok-to-delete`. Every write lists the hooks as `sets.List` does: sorted,
each once, no empty name.

The functions read and write the object's annotations and nothing else, so they are modelled on
them, and the MachineSet controller calls them on a machine's annotations. `MarkAsPending` patches
the object when `MarkObjectAsPending` changed it, and a patch is taken to succeed.
`MarkAsOkToDelete` first asks the scheme for the object's kind, `GVKForObject`, which fails for a
type the scheme does not register. Hook names are `validName`s, non-empty and without a comma, as
the names of the runtime hooks are. A nil annotation map and an empty one are both the empty list;
Go tells them apart only for the empty hook name.

What the annotation stands for is a set of hook names, `pendingHooks`. Over any sequence of calls
on an object of a registered type the annotations follow that set and the ok-to-delete flag
(`hookCalls_refine_hookState`), and once written the annotation is in the form `sets.List` gives
it, so marking a pending hook again changes nothing and sends no patch.
-/

namespace ClusterApi.Hooks

open ClusterApi.Lib.GoStrings ClusterApi.Lib.Trace

def PendingHooksAnnotation : String := "runtime.cluster.x-k8s.io/pending-hooks"

def OkToDeleteAnnotation : String := "runtime.cluster.x-k8s.io/ok-to-delete"

/-! ### Annotations and comma-separated lists -/

def setAnnotationValue (annotations : List (String × String)) (key value : String) :
    List (String × String) :=
  (key, value) :: annotations.filter (·.1 != key)

def deleteAnnotationKey (annotations : List (String × String)) (key : String) :
    List (String × String) :=
  annotations.filter (·.1 != key)

def setsList (set : List String) : List String :=
  set.dedup.insertionSort (· ≤ ·)

def addToCommaSeparatedList (list : String) (items : List String) : String :=
  ",".intercalate (setsList (((Split list ',').filter (· != "")) ++ items))

def isInCommaSeparatedList (list item : String) : Bool :=
  (Split list ',').contains item

def removeFromCommaSeparatedList (list : String) (items : List String) : String :=
  ",".intercalate
    (setsList (((Split list ',').filter (· != "")).filter fun item => !items.contains item))

/-- A name a comma-separated list can hold. The names of the API are non-empty DNS subdomains and
the runtime hooks have fixed names, so neither is empty or holds a comma. -/
def validName (name : String) : Prop := name ≠ "" ∧ ',' ∉ name.toList

instance : DecidablePred validName := fun _ => inferInstanceAs (Decidable (_ ∧ _))

def pendingHooksValue (annotations : List (String × String)) : String :=
  (annotations.lookup PendingHooksAnnotation).getD ""

def MarkObjectAsPending (annotations : List (String × String)) (hookNames : List String) :
    List (String × String) × Bool :=
  let newAnnotationValue := addToCommaSeparatedList (pendingHooksValue annotations) hookNames
  if pendingHooksValue annotations = newAnnotationValue then (annotations, false)
  else (setAnnotationValue annotations PendingHooksAnnotation newAnnotationValue, true)

def IsPending (hookName : String) (annotations : List (String × String)) : Bool :=
  isInCommaSeparatedList (pendingHooksValue annotations) hookName

/-- `MarkAsDone`, before its patch: nothing changes when the hook is not pending. -/
def MarkAsDone (annotations : List (String × String)) (hookName : String) :
    List (String × String) :=
  if !IsPending hookName annotations then annotations
  else
    let annotations := setAnnotationValue annotations PendingHooksAnnotation
      (removeFromCommaSeparatedList (pendingHooksValue annotations) [hookName])
    if pendingHooksValue annotations = "" then deleteAnnotationKey annotations PendingHooksAnnotation
    else annotations

def IsOkToDelete (annotations : List (String × String)) : Bool :=
  (annotations.lookup OkToDeleteAnnotation).isSome

/-- `MarkAsOkToDelete`, before its patch. `GVKForObject` is what `apiutil.GVKForObject(obj,
c.Scheme())` gives, the object's kind or an error, and `KObj` is `klog.KObj(obj)`. -/
def MarkAsOkToDelete (KObj : String) (GVKForObject : Except String String)
    (annotations : List (String × String)) : Except String (List (String × String)) :=
  if (annotations.lookup OkToDeleteAnnotation).isSome then .ok annotations
  else
    match GVKForObject with
    | .error err =>
      .error ("failed to mark " ++ KObj ++ " as ok to delete: failed to get GVK for object: " ++ err)
    | .ok _ => .ok (setAnnotationValue annotations OkToDeleteAnnotation "")

/-! ### Reading back what was written -/

section Annotations

variable {annotations : List (String × String)} {key key' value : String}

theorem lookup_cons_pair {k v : String} {rest : List (String × String)} :
    ((k, v) :: rest).lookup key' = if key' = k then some v else rest.lookup key' := by
  by_cases h : key' = k
  · simp [List.lookup, h]
  · have hb : (key' == k) = false := by simpa using h
    simp [List.lookup, hb, h]

@[simp]
theorem lookup_deleteAnnotationKey :
    (deleteAnnotationKey annotations key).lookup key' =
      if key' = key then none else annotations.lookup key' := by
  induction annotations with
  | nil => simp [deleteAnnotationKey]
  | cons a rest ih =>
    obtain ⟨k, v⟩ := a
    rw [deleteAnnotationKey] at ih ⊢
    by_cases hk : k = key
    · -- the entry of `key` itself goes
      subst hk
      rw [List.filter_cons_of_neg (by simp), ih, lookup_cons_pair]
      by_cases h' : key' = k <;> simp [h']
    · rw [List.filter_cons_of_pos (by simpa using hk), lookup_cons_pair, lookup_cons_pair, ih]
      by_cases h' : key' = key
      · simp [h', Ne.symm hk]
      · simp [h']

@[simp]
theorem lookup_setAnnotationValue :
    (setAnnotationValue annotations key value).lookup key' =
      if key' = key then some value else annotations.lookup key' := by
  rw [setAnnotationValue, lookup_cons_pair, ← deleteAnnotationKey, lookup_deleteAnnotationKey]
  by_cases hk : key' = key <;> simp [hk]

end Annotations

/-! ### `sets.List` and the set a list stands for -/

def decodeHooks (value : String) : Finset String :=
  ((Split value ',').filter (· != "")).toFinset

def pendingHooks (annotations : List (String × String)) : Finset String :=
  decodeHooks (pendingHooksValue annotations)

theorem mem_setsList {l : List String} {x : String} : x ∈ setsList l ↔ x ∈ l := by
  simp [setsList, List.mem_insertionSort]

theorem nodup_setsList (l : List String) : (setsList l).Nodup :=
  (List.perm_insertionSort _ _).nodup_iff.mpr (List.nodup_dedup l)

theorem setsList_eq_of_mem_iff {l l' : List String} (h : ∀ x, x ∈ l ↔ x ∈ l') :
    setsList l = setsList l' :=
  List.Perm.eq_of_pairwise' (List.pairwise_insertionSort _ _) (List.pairwise_insertionSort _ _)
    ((List.perm_ext_iff_of_nodup (nodup_setsList l) (nodup_setsList l')).mpr fun x => by
      simp only [mem_setsList, h])

theorem decodeHooks_join {l : List String} (hsep : ∀ x ∈ l, ',' ∉ x.toList) :
    decodeHooks (",".intercalate (setsList l)) = (l.filter (· != "")).toFinset := by
  by_cases hne : l = []
  · subst hne
    rfl
  obtain ⟨x, hx⟩ := List.exists_mem_of_ne_nil l hne
  have hne' : setsList l ≠ [] := List.ne_nil_of_mem (mem_setsList.mpr hx)
  rw [decodeHooks, Split_intercalate_strings rfl hne' fun y hy => hsep y (mem_setsList.mp hy)]
  ext y
  simp [mem_setsList]

theorem sep_not_mem_of_mem_filter_Split {value x : String}
    (hx : x ∈ (Split value ',').filter (· != "")) : ',' ∉ x.toList :=
  not_mem_of_mem_Split (List.mem_filter.mp hx).1

theorem decodeHooks_addToCommaSeparatedList (value : String) {hookNames : List String}
    (hsep : ∀ h ∈ hookNames, ',' ∉ h.toList) :
    decodeHooks (addToCommaSeparatedList value hookNames) =
      decodeHooks value ∪ (hookNames.filter (· != "")).toFinset := by
  unfold addToCommaSeparatedList
  rw [decodeHooks_join]
  · ext x
    simp [decodeHooks]
  · intro x hx
    rcases List.mem_append.mp hx with hx | hx
    · exact sep_not_mem_of_mem_filter_Split hx
    · exact hsep x hx

theorem decodeHooks_removeFromCommaSeparatedList (value : String) (items : List String) :
    decodeHooks (removeFromCommaSeparatedList value items) = decodeHooks value \ items.toFinset := by
  unfold removeFromCommaSeparatedList
  rw [decodeHooks_join fun x hx => sep_not_mem_of_mem_filter_Split (List.mem_filter.mp hx).1]
  ext x
  simp [decodeHooks]
  tauto

/-! ### What the calls do to the set -/

variable {annotations : List (String × String)}

@[simp] theorem pendingHooksValue_setAnnotationValue (key value : String) :
    pendingHooksValue (setAnnotationValue annotations key value) =
      if PendingHooksAnnotation = key then value else pendingHooksValue annotations := by
  unfold pendingHooksValue
  rw [lookup_setAnnotationValue]
  split_ifs <;> rfl

@[simp] theorem pendingHooksValue_deleteAnnotationKey :
    pendingHooksValue (deleteAnnotationKey annotations PendingHooksAnnotation) = "" := by
  simp [pendingHooksValue]

theorem pendingHooksValue_MarkObjectAsPending (hookNames : List String) :
    pendingHooksValue (MarkObjectAsPending annotations hookNames).1 =
      addToCommaSeparatedList (pendingHooksValue annotations) hookNames := by
  unfold MarkObjectAsPending
  dsimp only
  split_ifs with h
  · exact h
  · simp

theorem IsPending_iff {hookName : String} (hne : hookName ≠ "") :
    IsPending hookName annotations = true ↔ hookName ∈ pendingHooks annotations := by
  simp [IsPending, isInCommaSeparatedList, pendingHooks, decodeHooks, hne]

theorem pendingHooks_MarkObjectAsPending {hookNames : List String}
    (hvalid : ∀ h ∈ hookNames, validName h) :
    pendingHooks (MarkObjectAsPending annotations hookNames).1 =
      pendingHooks annotations ∪ hookNames.toFinset := by
  have hfilter : hookNames.filter (· != "") = hookNames :=
    List.filter_eq_self.mpr fun h hh => by simpa using (hvalid h hh).1
  rw [pendingHooks, pendingHooksValue_MarkObjectAsPending,
    decodeHooks_addToCommaSeparatedList _ fun h hh => (hvalid h hh).2, hfilter, pendingHooks]

theorem pendingHooks_MarkAsDone {hookName : String} (hvalid : validName hookName) :
    pendingHooks (MarkAsDone annotations hookName) = (pendingHooks annotations).erase hookName := by
  have hremove : decodeHooks (removeFromCommaSeparatedList (pendingHooksValue annotations)
      [hookName]) = (pendingHooks annotations).erase hookName := by
    rw [decodeHooks_removeFromCommaSeparatedList, pendingHooks]
    ext x
    simp [and_comm]
  unfold MarkAsDone
  dsimp only
  split_ifs with hpending hempty
  · -- not pending: there is nothing to remove
    have hnot : hookName ∉ pendingHooks annotations := by
      rw [← IsPending_iff hvalid.1]
      simpa using hpending
    rw [Finset.erase_eq_of_notMem hnot]
  · -- no hook left: the annotation goes, and an absent annotation lists no hook
    simp only [pendingHooksValue_setAnnotationValue, if_true] at hempty
    rw [pendingHooks, pendingHooksValue_deleteAnnotationKey, ← hremove, hempty]
  · rw [pendingHooks, pendingHooksValue_setAnnotationValue, if_pos rfl, hremove]

theorem OkToDelete_ne_PendingHooks : OkToDeleteAnnotation ≠ PendingHooksAnnotation := by decide


theorem IsOkToDelete_setAnnotationValue_pendingHooks (value : String) :
    IsOkToDelete (setAnnotationValue annotations PendingHooksAnnotation value) =
      IsOkToDelete annotations := by
  simp [IsOkToDelete, OkToDelete_ne_PendingHooks]

theorem lookup_MarkObjectAsPending {key : String} (hkey : key ≠ PendingHooksAnnotation)
    (hookNames : List String) :
    (MarkObjectAsPending annotations hookNames).1.lookup key = annotations.lookup key := by
  unfold MarkObjectAsPending
  dsimp only
  split_ifs
  · rfl
  · rw [lookup_setAnnotationValue, if_neg hkey]

theorem IsOkToDelete_MarkObjectAsPending (hookNames : List String) :
    IsOkToDelete (MarkObjectAsPending annotations hookNames).1 = IsOkToDelete annotations := by
  rw [IsOkToDelete, IsOkToDelete, lookup_MarkObjectAsPending OkToDelete_ne_PendingHooks]

theorem IsOkToDelete_MarkAsDone (hookName : String) :
    IsOkToDelete (MarkAsDone annotations hookName) = IsOkToDelete annotations := by
  unfold MarkAsDone
  dsimp only
  split_ifs
  · rfl
  · simp [IsOkToDelete, OkToDelete_ne_PendingHooks]
  · exact IsOkToDelete_setAnnotationValue_pendingHooks _

section OkToDelete

variable {KObj : String} {GVKForObject : Except String String}

theorem MarkAsOkToDelete_ok {annotations' : List (String × String)}
    (h : MarkAsOkToDelete KObj GVKForObject annotations = .ok annotations') :
    pendingHooks annotations' = pendingHooks annotations ∧ IsOkToDelete annotations' = true := by
  unfold MarkAsOkToDelete at h
  split_ifs at h with hset
  · cases h
    exact ⟨rfl, hset⟩
  · cases GVKForObject with
    | error err => cases h
    | ok kind =>
      cases h
      refine ⟨?_, by simp [IsOkToDelete]⟩
      rw [pendingHooks, pendingHooksValue_setAnnotationValue,
        if_neg OkToDelete_ne_PendingHooks.symm, pendingHooks]

variable (KObj) in
theorem MarkAsOkToDelete_isOk (annotations : List (String × String))
    (hgvk : ∃ kind, GVKForObject = .ok kind) :
    ∃ annotations', MarkAsOkToDelete KObj GVKForObject annotations = .ok annotations' := by
  obtain ⟨kind, rfl⟩ := hgvk
  unfold MarkAsOkToDelete
  split_ifs
  · exact ⟨_, rfl⟩
  · exact ⟨_, rfl⟩

end OkToDelete

/-! ### Runs of calls -/

inductive HookCall
  | markAsPending (hookNames : List String)
  | markAsDone (hookName : String)
  | markAsOkToDelete
  deriving DecidableEq, Repr

structure HookState where
  pending : Finset String
  okToDelete : Bool
  deriving DecidableEq

def hookState (annotations : List (String × String)) : HookState :=
  ⟨pendingHooks annotations, IsOkToDelete annotations⟩

namespace HookCall

/-- The call on the object's annotations; a call that fails returns before it changes them. -/
def apply (KObj : String) (GVKForObject : Except String String)
    (annotations : List (String × String)) : HookCall → List (String × String)
  | markAsPending hookNames => (MarkObjectAsPending annotations hookNames).1
  | markAsDone hookName => MarkAsDone annotations hookName
  | markAsOkToDelete =>
    match MarkAsOkToDelete KObj GVKForObject annotations with
    | .ok annotations' => annotations'
    | .error _ => annotations

def step (s : HookState) : HookCall → HookState
  | markAsPending hookNames => { s with pending := s.pending ∪ hookNames.toFinset }
  | markAsDone hookName => { s with pending := s.pending.erase hookName }
  | markAsOkToDelete => { s with okToDelete := true }

def Valid : HookCall → Prop
  | markAsPending hookNames => ∀ h ∈ hookNames, validName h
  | markAsDone hookName => validName hookName
  | markAsOkToDelete => True

instance : DecidablePred Valid := fun c =>
  match c with
  | markAsPending hookNames => inferInstanceAs (Decidable (∀ h ∈ hookNames, validName h))
  | markAsDone hookName => inferInstanceAs (Decidable (validName hookName))
  | markAsOkToDelete => inferInstanceAs (Decidable True)

end HookCall

section Runs

variable (KObj : String) {GVKForObject : Except String String}
  (hgvk : ∃ kind, GVKForObject = .ok kind)
include hgvk

theorem hookState_apply {c : HookCall} (hc : c.Valid) (annotations : List (String × String)) :
    hookState (c.apply KObj GVKForObject annotations) = c.step (hookState annotations) := by
  cases c with
  | markAsPending hookNames =>
    simp only [HookCall.apply, HookCall.step, hookState, pendingHooks_MarkObjectAsPending hc,
      IsOkToDelete_MarkObjectAsPending]
  | markAsDone hookName =>
    simp only [HookCall.apply, HookCall.step, hookState, pendingHooks_MarkAsDone hc,
      IsOkToDelete_MarkAsDone]
  | markAsOkToDelete =>
    obtain ⟨annotations', hok⟩ := MarkAsOkToDelete_isOk KObj annotations hgvk
    obtain ⟨hpending, hflag⟩ := MarkAsOkToDelete_ok hok
    simp only [HookCall.apply, hok, HookCall.step, hookState, hpending, hflag]

/-- Over any sequence of calls on an object of a registered type that name hooks by their names,
the annotations stand for the state the calls compute on sets: the pending-hooks annotation lists
exactly the hooks marked pending and not marked done since, which is what `IsPending` reads, and
the object may be deleted once it was marked so. -/
theorem hookCalls_refine_hookState (annotations : List (String × String)) (calls : List HookCall)
    (hvalid : ∀ c ∈ calls, c.Valid) :
    hookState (calls.foldl (HookCall.apply KObj GVKForObject) annotations) =
      calls.foldl HookCall.step (hookState annotations) ∧
    ∀ hookName, hookName ≠ "" →
      (IsPending hookName (calls.foldl (HookCall.apply KObj GVKForObject) annotations) = true ↔
        hookName ∈ (calls.foldl HookCall.step (hookState annotations)).pending) := by
  -- each call commutes with reading the annotations as a state
  have hrun := foldl_simulate hookState (HookCall.apply KObj GVKForObject) HookCall.step
    (b := annotations) fun annotations c hc => hookState_apply KObj hgvk (hvalid c hc) annotations
  refine ⟨hrun, fun hookName hne => ?_⟩
  rw [IsPending_iff hne, ← hrun]
  rfl

end Runs

theorem hookCalls_refine_hookState_upgrade :
    (∃ kind, (Except.ok "Cluster" : Except String String) = .ok kind) ∧
    hookState ([.markAsPending ["AfterControlPlaneUpgrade", "AfterClusterUpgrade"],
        .markAsDone "AfterControlPlaneUpgrade", .markAsOkToDelete].foldl
          (HookCall.apply "default/my-cluster" (.ok "Cluster")) []) =
      [.markAsPending ["AfterControlPlaneUpgrade", "AfterClusterUpgrade"],
        .markAsDone "AfterControlPlaneUpgrade", .markAsOkToDelete].foldl HookCall.step
        (hookState []) ∧
    ∀ hookName, hookName ≠ "" →
      (IsPending hookName ([.markAsPending ["AfterControlPlaneUpgrade", "AfterClusterUpgrade"],
          .markAsDone "AfterControlPlaneUpgrade", .markAsOkToDelete].foldl
            (HookCall.apply "default/my-cluster" (.ok "Cluster")) []) = true ↔
        hookName ∈ ([.markAsPending ["AfterControlPlaneUpgrade", "AfterClusterUpgrade"],
          .markAsDone "AfterControlPlaneUpgrade", .markAsOkToDelete].foldl HookCall.step
            (hookState [])).pending) :=
  ⟨⟨"Cluster", rfl⟩, hookCalls_refine_hookState "default/my-cluster" ⟨"Cluster", rfl⟩ [] _
    (by decide)⟩

/-! ### A written annotation is in the form of `sets.List` -/

theorem MarkObjectAsPending_changed {hookNames : List String} :
    (MarkObjectAsPending annotations hookNames).2 = true ↔
      pendingHooksValue annotations ≠
        addToCommaSeparatedList (pendingHooksValue annotations) hookNames := by
  unfold MarkObjectAsPending
  dsimp only
  split_ifs with h
  · simp only [false_iff, not_not]
    exact h
  · simp only [true_iff]
    exact h

theorem mem_decodeHooks {value x : String} :
    x ∈ decodeHooks value ↔ x ∈ (Split value ',').filter (· != "") := by
  simp [decodeHooks]

theorem MarkObjectAsPending_changed_of_setsList {l hookNames : List String}
    (hvalue : pendingHooksValue annotations = ",".intercalate (setsList l))
    (hl : ∀ x ∈ l, validName x) (hvalid : ∀ h ∈ hookNames, validName h) :
    (MarkObjectAsPending annotations hookNames).2 = true ↔
      ∃ h ∈ hookNames, IsPending h annotations = false := by
  have hentries : ∀ x, x ∈ (Split (pendingHooksValue annotations) ',').filter (· != "") ↔ x ∈ l := by
    intro x
    rw [← mem_decodeHooks, hvalue, decodeHooks_join fun y hy => (hl y hy).2, List.mem_toFinset,
      List.mem_filter]
    exact ⟨fun h => h.1, fun hx => ⟨hx, by simpa using (hl x hx).1⟩⟩
  rw [MarkObjectAsPending_changed]
  constructor
  · -- every hook already listed: the value is written again as it is
    intro hchanged
    by_contra hall
    simp only [not_exists, not_and, Bool.not_eq_false] at hall
    have hlisted : ∀ h ∈ hookNames, h ∈ l := fun h hh =>
      (hentries h).mp (mem_decodeHooks.mp ((IsPending_iff (hvalid h hh).1).mp (hall h hh)))
    have hsets : setsList ((Split (pendingHooksValue annotations) ',').filter (· != "") ++ hookNames) =
        setsList l := by
      apply setsList_eq_of_mem_iff
      intro x
      rw [List.mem_append, hentries]
      exact ⟨fun h => h.elim id (hlisted x), Or.inl⟩
    apply hchanged
    rw [addToCommaSeparatedList, hsets, hvalue]
  · -- a hook not listed yet is listed after
    rintro ⟨h, hh, hpending⟩ hsame
    have hnot : h ∉ pendingHooks annotations := by
      rw [← IsPending_iff (hvalid h hh).1, hpending]
      simp
    apply hnot
    rw [pendingHooks, hsame, decodeHooks_addToCommaSeparatedList _ fun h hh => (hvalid h hh).2]
    simp [hh, (hvalid h hh).1]

/-- Once the annotation has been written, marking hooks pending reports a change, and so
`MarkAsPending` patches the object, exactly when one of them is not pending yet. -/
theorem MarkObjectAsPending_changed_iff (annotations : List (String × String))
    (hookNames hookNames' : List String) (hvalid : ∀ h ∈ hookNames, validName h)
    (hvalid' : ∀ h ∈ hookNames', validName h) :
    (MarkObjectAsPending (MarkObjectAsPending annotations hookNames).1 hookNames').2 = true ↔
      ∃ h ∈ hookNames', IsPending h (MarkObjectAsPending annotations hookNames).1 = false := by
  have hvalue := @pendingHooksValue_MarkObjectAsPending annotations hookNames
  refine MarkObjectAsPending_changed_of_setsList hvalue (fun x hx => ?_) hvalid'
  rcases List.mem_append.mp hx with hx | hx
  · exact ⟨by simpa using (List.mem_filter.mp hx).2, sep_not_mem_of_mem_filter_Split hx⟩
  · exact hvalid x hx

theorem MarkObjectAsPending_changed_iff_updateMachine :
    (MarkObjectAsPending (MarkObjectAsPending [] ["UpdateMachine"]).1 ["UpdateMachine"]).2 =
        true ↔
      ∃ h ∈ ["UpdateMachine"], IsPending h (MarkObjectAsPending [] ["UpdateMachine"]).1 = false :=
  MarkObjectAsPending_changed_iff [] ["UpdateMachine"] ["UpdateMachine"] (by decide) (by decide)

end ClusterApi.Hooks
