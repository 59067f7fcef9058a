import MassDeployment.Controller.Cleanups
import MassDeployment.Controller.GpuPolicies

set_option autoImplicit false

/-! # The redacted copy of a task (`queue.ts`)

The log of tasks is backed up and shown, so it holds a copy of the parameters in which whatever is
stored under a credential-looking key is masked. The copy is the one of its kind: parameters that are
the same in the open have the same copy, and the copy is the same in the open as they are. What the
handlers of results read back of it is in the open in every task that the controller issues.
-/

namespace MassDeployment

open Js Prog

/-! ## The same in the open -/

mutual

/-- Two values that differ in nothing but what is stored under secret keys. -/
inductive SameOpen : Json → Json → Prop where
  | null : SameOpen .null .null
  | bool (b : Bool) : SameOpen (.bool b) (.bool b)
  | num (n : Number) : SameOpen (.num n) (.num n)
  | str (s : String) : SameOpen (.str s) (.str s)
  | arr {items items' : List Json} (h : SameItems items items') :
      SameOpen (.arr items) (.arr items')
  | obj {fields fields' : List (String × Json)} (h : SameFields fields fields') :
      SameOpen (.obj fields) (.obj fields')

inductive SameItems : List Json → List Json → Prop where
  | nil : SameItems [] []
  | cons {j j' : Json} {rest rest' : List Json} (h : SameOpen j j') (hrest : SameItems rest rest') :
      SameItems (j :: rest) (j' :: rest')

inductive SameFields : List (String × Json) → List (String × Json) → Prop where
  | nil : SameFields [] []
  | secret {k : String} {v v' : Json} {rest rest' : List (String × Json)}
      (hk : secretKey k = true) (hrest : SameFields rest rest') :
      SameFields ((k, v) :: rest) ((k, v') :: rest')
  | shown {k : String} {v v' : Json} {rest rest' : List (String × Json)}
      (h : SameOpen v v') (hrest : SameFields rest rest') :
      SameFields ((k, v) :: rest) ((k, v') :: rest')

end

mutual

/-- No object in the value has a key `__proto__`. -/
def noProto : Json → Bool
  | .arr items => noProtoItems items
  | .obj fields => noProtoFields fields
  | _ => true

def noProtoItems : List Json → Bool
  | [] => true
  | j :: rest => noProto j && noProtoItems rest

def noProtoFields : List (String × Json) → Bool
  | [] => true
  | (k, v) :: rest => k != "__proto__" && noProto v && noProtoFields rest

end

mutual

theorem SameOpen.symm {j j' : Json} : SameOpen j j' → SameOpen j' j
  | .null => .null
  | .bool b => .bool b
  | .num n => .num n
  | .str s => .str s
  | .arr h => .arr h.symm
  | .obj h => .obj h.symm

theorem SameItems.symm {l l' : List Json} : SameItems l l' → SameItems l' l
  | .nil => .nil
  | .cons h hrest => .cons h.symm hrest.symm

theorem SameFields.symm {l l' : List (String × Json)} : SameFields l l' → SameFields l' l
  | .nil => .nil
  | .secret hk hrest => .secret hk hrest.symm
  | .shown h hrest => .shown h.symm hrest.symm

end

mutual

/-- **What is the same in the open is redacted alike.** -/
theorem SameOpen.redact {j j' : Json} : SameOpen j j' → redactSecrets j = redactSecrets j'
  | .null => rfl
  | .bool _ => rfl
  | .num _ => rfl
  | .str _ => rfl
  | .arr h => congrArg Json.arr h.redact
  | .obj h => congrArg Json.obj h.redact

theorem SameItems.redact {l l' : List Json} : SameItems l l' → redactItems l = redactItems l'
  | .nil => rfl
  | .cons h hrest => congrArg₂ List.cons h.redact hrest.redact

theorem SameFields.redact {l l' : List (String × Json)} :
    SameFields l l' → redactFields l = redactFields l'
  | .nil => rfl
  | .secret hk hrest => by
      rw [redactFields, redactFields, hrest.redact, if_pos hk, if_pos hk]
  | .shown h hrest => by
      rw [redactFields, redactFields, hrest.redact, h.redact]

end

mutual

/-- **Redaction leaves what is in the open as it is.** -/
theorem same_redactSecrets : ∀ j : Json, noProto j = true → SameOpen j (redactSecrets j)
  | .null, _ => .null
  | .bool b, _ => .bool b
  | .num n, _ => .num n
  | .str s, _ => .str s
  | .arr items, h => .arr (same_redactItems items h)
  | .obj fields, h => .obj (same_redactFields fields h)

theorem same_redactItems : ∀ l : List Json, noProtoItems l = true → SameItems l (redactItems l)
  | [], _ => .nil
  | j :: rest, h => by
      rw [noProtoItems, Bool.and_eq_true] at h
      exact .cons (same_redactSecrets j h.1) (same_redactItems rest h.2)

theorem same_redactFields : ∀ l : List (String × Json), noProtoFields l = true →
    SameFields l (redactFields l)
  | [], _ => .nil
  | (k, v) :: rest, h => by
      rw [noProtoFields, Bool.and_eq_true, Bool.and_eq_true, bne_iff_ne] at h
      have hrest := same_redactFields rest h.2
      rw [redactFields, if_neg h.1.1]
      by_cases hk : secretKey k = true
      · exact .secret hk hrest
      · rw [if_neg hk]
        exact .shown (same_redactSecrets v h.1.2) hrest

end

mutual

theorem SameOpen.trans {j j' j'' : Json} : SameOpen j j' → SameOpen j' j'' → SameOpen j j''
  | .null, .null => .null
  | .bool b, .bool _ => .bool b
  | .num n, .num _ => .num n
  | .str s, .str _ => .str s
  | .arr h, .arr h' => .arr (h.trans h')
  | .obj h, .obj h' => .obj (h.trans h')

theorem SameItems.trans {l l' l'' : List Json} : SameItems l l' → SameItems l' l'' → SameItems l l''
  | .nil, .nil => .nil
  | .cons h hrest, .cons h' hrest' => .cons (h.trans h') (hrest.trans hrest')

theorem SameFields.trans {l l' l'' : List (String × Json)} :
    SameFields l l' → SameFields l' l'' → SameFields l l''
  | .nil, .nil => .nil
  | .secret hk hrest, .secret _ hrest' => .secret hk (hrest.trans hrest')
  | .secret hk hrest, .shown _ hrest' => .secret hk (hrest.trans hrest')
  | .shown _ hrest, .secret hk hrest' => .secret hk (hrest.trans hrest')
  | .shown h hrest, .shown h' hrest' => .shown (h.trans h') (hrest.trans hrest')

end

/-- **Redaction tells apart what differs in the open, and nothing else.** -/
theorem redactSecrets_eq_iff {j j' : Json} (hj : noProto j = true) (hj' : noProto j' = true) :
    redactSecrets j = redactSecrets j' ↔ SameOpen j j' := by
  constructor
  · intro h
    have hleft : SameOpen j (redactSecrets j') := h ▸ same_redactSecrets j hj
    exact hleft.trans (same_redactSecrets j' hj').symm
  · exact SameOpen.redact

/-- A redacted copy is its own copy. -/
theorem redactSecrets_idem {j : Json} (hj : noProto j = true) :
    redactSecrets (redactSecrets j) = redactSecrets j :=
  (same_redactSecrets j hj).redact.symm

/-! ## The tasks of the controller -/

/-- The parameters of a `gpu.policy.update`. -/
def GpuPolicyUpdate.params (u : GpuPolicyUpdate) : Params :=
  let number : Option ℚ → Json
    | some q => .num (.fin q)
    | none => .null
  [("enabled", .bool u.enabled), ("util_threshold", number u.utilThreshold),
    ("idle_minutes", number u.idleMinutes), ("grace_minutes", number u.graceMinutes),
    ("immediate", .bool u.immediate), ("whitelist_users", .arr (u.whitelistUsers.map .str)),
    ("whitelist_labs", .arr (u.whitelistLabs.map .str))]

theorem legible_gpuPolicy (u : GpuPolicyUpdate) : Legible u.params :=
  legible_of_forall (by simp [GpuPolicyUpdate.params, readBack])

theorem legible_studentRemove (p : Placement) (username : String) (deleteData : Bool)
    (removal : Option (String × List String)) :
    Legible (studentRemoveParams p username deleteData removal) := by
  refine legible_of_forall ?_
  cases removal with
  | none => simp [studentRemoveParams, redactSecrets]
  | some x => simp [studentRemoveParams, redactSecrets, redactItems_strings]

theorem legible_deleteCold (lab username rid : String) :
    Legible (deleteColdParams (.str lab) (.str username) (.str rid)) :=
  legible_of_forall (by simp [deleteColdParams, redactSecrets])

/-- The parameters of a task are legible; those of removals and of GPU policies are looked at apart. -/
def TaskFrame.Told (frame : TaskFrame) : Prop :=
  frame.action ≠ .studentRemove → frame.action ≠ .studentDeleteCold →
    frame.action ≠ .gpuPolicyUpdate → Legible frame.params

/-- What every act keeps to, if ordinary tasks, removals and cleanups do. -/
theorem logged_any {A : String → TaskFrame → Prop} (hA : ∀ node frame, TaskFrame.Ordinary frame → A node frame)
    (hremove : ∀ node frame, frame.action = .studentRemove → A node frame)
    (hcold : ∀ node frame, frame.action = .studentDeleteCold → A node frame) (s : Controller) (a : Act) :
    Logged A (fun _ => False) s (step s a) := by
  have plain : a.Plain → Logged A (fun _ => False) s (step s a) :=
    fun ha => (quiet_plain hA ha s).logged
  cases a with
  | removeStudentFromLab labId studentId deleteData actor =>
      obtain ⟨removal, -, hq⟩ := removeStudentFromLab_issues (K := fun _ => False) s labId studentId
        deleteData actor
      exact (hq.mono fun node frame h => hremove node frame h.1).logged
  | deleteNode name actor force => exact (quiet_deleteNode name actor force id s).logged
  | frame node received =>
      cases received with
      | result frame =>
          by_cases hex : ∃ t ∈ s.db.taskLog.rows, t.openFor node frame.id = true
          · obtain ⟨t, ht, hopen⟩ := hex
            obtain ⟨s₁, s₂, hq, -, hw, hq', -⟩ := handleResult_spec ht hopen
              fun s' _ _ _ => walk_completeStudentRemoval quietWalk hcold frame.id s'
            exact ((logged_settled s node frame).trans hq.logged).trans (hw.logged.trans hq'.logged)
          · rw [ignored_step (by simpa using hex)]
            exact Quiet.logged (.refl s)
      | _ => exact plain trivial
  | _ => exact plain trivial

/-- So it is with every task of a run. -/
theorem issued_any {A : TaskFrame → Prop} (hA : ∀ frame : TaskFrame, frame.Ordinary → A frame)
    (hremove : ∀ frame : TaskFrame, frame.action = .studentRemove → A frame)
    (hcold : ∀ frame : TaskFrame, frame.action = .studentDeleteCold → A frame) (host : Host)
    (acts : List Act) : ∀ x ∈ (Run.run step (.init host) acts).issued, A x.2 := by
  have hinit : ∀ x ∈ (Controller.init host).issued, A x.2 := fun _ h => absurd h List.not_mem_nil
  refine Run.invariant_all (I := fun s : Controller => ∀ x ∈ s.issued, A x.2)
    (fun s a h x hx => ?_) hinit
  obtain ⟨new, hnew, hnewA⟩ := (logged_any (A := fun _ => A) (fun _ => hA) (fun _ => hremove)
    (fun _ => hcold) s a).issued
  rw [hnew] at hx
  rcases List.mem_append.mp hx with hx | hx
  · exact hnewA x hx
  · exact h x hx

theorem told_run (host : Host) (acts : List Act) :
    ∀ x ∈ (Run.run step (.init host) acts).issued, x.2.Told :=
  issued_any (fun _ h _ _ hgpu => h.legible hgpu) (fun _ h h' => absurd h h')
    (fun _ h _ h' => absurd h h') host acts

/-- The update of a GPU policy, where the task is one, is what the settings say. -/
def TaskFrame.FromSettings (frame : TaskFrame) : Prop :=
  frame.action = .gpuPolicyUpdate → ∃ h g, frame.params = (gpuPolicyPayload h g).params

theorem legible_run (host : Host) (acts : List Act) :
    ∀ x ∈ (Run.run step (.init host) acts).issued, x.2.FromSettings → Legible x.2.params := by
  intro x hx hgpu
  have hbuilt := (ordered_run host acts).1.recorded.built x hx
  by_cases hpolicy : x.2.action = .gpuPolicyUpdate
  · obtain ⟨h, g, hp⟩ := hgpu hpolicy
    rw [hp]
    exact legible_gpuPolicy _
  by_cases hremove : x.2.action = .studentRemove
  · obtain ⟨p, username, deleteData, removal, hp, -⟩ := hbuilt.remove hremove
    rw [hp]
    exact legible_studentRemove p username deleteData removal
  by_cases hcold : x.2.action = .studentDeleteCold
  · obtain ⟨lab, username, rid, hp⟩ := hbuilt.cold hcold
    rw [hp]
    exact legible_deleteCold lab username rid
  · exact told_run host acts x hx hremove hcold hpolicy

/-- **Redaction hides all secrets and nothing else.** Values that are the same in the open have the
same copy, the copy is the same in the open as the value and is its own copy. And in every run the log
says what is read back of a task as the task does. -/
theorem redaction_hides_secrets :
    (∀ j j' : Json, SameOpen j j' → redactSecrets j = redactSecrets j') ∧
    (∀ j : Json, noProto j = true →
      SameOpen j (redactSecrets j) ∧ redactSecrets (redactSecrets j) = redactSecrets j) ∧
    ∀ (host : Host) (acts : List Act),
      (∀ x ∈ (Run.run step (.init host) acts).issued, x.2.FromSettings → Legible x.2.params) ∧
      ∀ t ∈ (Run.run step (.init host) acts).db.taskLog.rows, ∃ frame,
        (t.node, frame) ∈ (Run.run step (.init host) acts).issued ∧ frame.Issues t ∧
          (frame.FromSettings → ∀ k ∈ readBack,
            Value.get (safeParams t.params) k = .ok (frame.params.lookup k)) := by
  refine ⟨fun j j' => SameOpen.redact, fun j hj => ⟨same_redactSecrets j hj, redactSecrets_idem hj⟩,
    fun host acts => ⟨legible_run host acts, fun t ht => ?_⟩⟩
  obtain ⟨frame, hmem, hissues⟩ := (ordered_run host acts).1.recorded.rows t ht
  refine ⟨frame, hmem, hissues, fun hgpu k hk => ?_⟩
  rw [hissues.params, ← legible_run host acts _ hmem hgpu k hk]
  rfl

/-- A node with a scan of a lab's usage. -/
def scanned : List Act :=
  [.provisionNode "n" none, .maintain "n" (.usageScan "bio" ["ada"]) none]

theorem redaction_hides_secrets_scanned :
    redactSecrets (.arr [.obj [("user", .str "ada"), ("password", .str "rose")]]) =
      redactSecrets (.arr [.obj [("user", .str "ada"), ("password", .null)]]) ∧
    SameOpen (.obj [("token", .str "t"), ("port", .null)])
      (redactSecrets (.obj [("token", .str "t"), ("port", .null)])) ∧
    ∀ t ∈ (Run.run step (.init .plain) scanned).db.taskLog.rows, ∃ frame : TaskFrame,
      frame.Issues t ∧ Value.get (safeParams t.params) "lab" = .ok (frame.params.lookup "lab") := by
  obtain ⟨hsame, hopen, hrun⟩ := redaction_hides_secrets
  refine ⟨hsame _ _ (.arr (.cons (.obj ?_) .nil)), (hopen _ (by decide)).1, fun t ht => ?_⟩
  · exact .shown (.str "ada") (.secret (by decide) .nil)
  · obtain ⟨frame, -, hissues, hread⟩ := (hrun .plain scanned).2 t ht
    have hscan : ∀ t ∈ (Run.run step (.init .plain) scanned).db.taskLog.rows,
        t.action = .usageScan := by decide
    refine ⟨frame, hissues, hread (fun hgpu => ?_) "lab" (by decide)⟩
    rw [← hissues.action, hscan t ht] at hgpu
    cases hgpu

end MassDeployment
