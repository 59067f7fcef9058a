import MassDeployment.Agent.Patching
import MassDeployment.Controller.Labs
import MassDeployment.Controller.Nodes
import MassDeployment.Lib.Text

set_option autoImplicit false

/-! # Whose container a name is (`executors/docker.py`, `containerops.py`)

The container of a lab is `<lab>-<node>`, and a recreate preserves the one before it as
`<lab>-<node>-old`. A node name may hold hyphens and so may a lab name, and nothing sets the suffix
apart from either: the preserved name of one lab is the container name of another where the node is
called `old`, or `old-old`, and so on, and the other lab is called like the first one with `-old`
behind. Under every other pair of names the tasks of a lab leave the container of another lab alone.
-/

namespace MassDeployment.Agent

open Procedure

/-- The node is called `old`, or `old-old`, and so on. -/
def OldNode (node : String) : Prop := ∀ part ∈ Text.split '-' node, part = "old"

instance (node : String) : Decidable (OldNode node) :=
  inferInstanceAs (Decidable (∀ part ∈ Text.split '-' node, part = "old"))

/-- **The tasks of `lab` and the container of `other`**: the names are apart, and so are the names
that the tasks use, and what is under the name of the other container stays what it is. -/
structure KeepsApart (node lab other : String) : Prop where
  names : containerName lab node ≠ containerName other node
  stale : preserved (containerName lab node) ≠ containerName other node
  create : ∀ fate n, ((createLab fate (containerName lab node)).after n).containers
    (containerName other node) = n.containers (containerName other node)
  destroy : ∀ fate n, ((destroyLab fate (containerName lab node)).after n).containers
    (containerName other node) = n.containers (containerName other node)
  recreate : ∀ fate rollback students n,
    ((recreateContainer fate rollback lab (containerName lab node) students).after n).containers
      (containerName other node) = n.containers (containerName other node)

/-! ## The names -/

theorem containerName_inj {node lab other : String} :
    containerName lab node = containerName other node ↔ lab = other := by
  constructor
  · intro h
    have hlists := congrArg String.toList h
    simp only [containerName, String.toList_append, List.append_assoc] at hlists
    exact String.toList_inj.mp (List.append_cancel_right hlists)
  · rintro rfl
    rfl

/-- Parts that all are `old`. -/
abbrev AllOld (s : List Char) : Prop := ∀ part ∈ s.splitOn '-', part = "old".toList

theorem oldNode_iff {node : String} : OldNode node ↔ AllOld node.toList := by
  unfold OldNode Text.split AllOld
  rw [List.forall_mem_map]
  refine forall₂_congr fun part _ => ?_
  rw [← String.toList_inj, String.toList_ofList]

/-- In front of what is all `old` or behind it, one more `-old` comes to the same. -/
theorem shift_of_allOld {s : List Char} (h : AllOld s) :
    "-old".toList ++ '-' :: s = '-' :: s ++ "-old".toList := by
  have hs : s = ['-'].intercalate (s.splitOn '-') := (List.intercalate_splitOn '-').symm
  have key : ∀ parts : List (List Char), parts ≠ [] → (∀ part ∈ parts, part = "old".toList) →
      "-old".toList ++ '-' :: ['-'].intercalate parts =
        '-' :: ['-'].intercalate parts ++ "-old".toList := by
    intro parts hne hold
    induction parts with
    | nil => exact absurd rfl hne
    | cons part parts ih =>
        have hpart : part = "old".toList := hold part (by simp)
        cases parts with
        | nil => simp [hpart]
        | cons second parts =>
            have htail := ih (by simp) fun p hp => hold p (by simp [hp])
            have hsplit : ['-'].intercalate (part :: second :: parts) =
                part ++ '-' :: ['-'].intercalate (second :: parts) := by
              simp [List.intercalate_cons_cons]
            calc "-old".toList ++ '-' :: ['-'].intercalate (part :: second :: parts)
                = "-old".toList ++ ("-old".toList ++ '-' :: ['-'].intercalate (second :: parts)) := by
                  rw [hsplit, hpart]
                  rfl
              _ = "-old".toList ++ ('-' :: ['-'].intercalate (second :: parts) ++ "-old".toList) := by
                  rw [htail]
              _ = '-' :: ['-'].intercalate (part :: second :: parts) ++ "-old".toList := by
                  rw [hsplit, hpart]
                  rfl
  rw [hs]
  exact key _ (List.splitOn_ne_nil _ _) h

/-- Three characters and a hyphen that may stand in front instead of `-old` behind: they are `old`,
and so is every part of the text. -/
theorem allOld_of_shift {b c d : Char} : ∀ {s : List Char},
    b :: c :: d :: '-' :: s = s ++ "-old".toList → [b, c, d] = "old".toList ∧ AllOld s
  | [], h | [_], h | [_, _], h => by simp at h
  | [x, y, z], h => by
    -- the last part: the text ends where the front does
    simp only [List.cons_append, List.nil_append, List.cons.injEq] at h
    obtain ⟨rfl, rfl, rfl, h⟩ := h
    have hold : [b, c, d] = "old".toList := (List.cons.inj h).2
    refine ⟨hold, ?_⟩
    rw [hold]
    decide
  | x :: y :: z :: hyphen :: rest, h => by
    simp only [List.cons_append, List.cons.injEq] at h
    obtain ⟨rfl, rfl, rfl, rfl, h⟩ := h
    obtain ⟨hold, hrest⟩ := allOld_of_shift h
    refine ⟨hold, ?_⟩
    have hparts : AllOld ([b, c, d] ++ '-' :: rest) := by
      unfold AllOld
      rw [List.splitOn_append_cons_self, hold]
      intro part hpart
      rcases List.mem_append.mp hpart with hfirst | hlater
      · have hself : "old".toList.splitOn '-' = ["old".toList] := by decide
        rw [hself] at hfirst
        exact List.mem_singleton.mp hfirst
      · exact hrest part hlater
    exact hparts

/-- **Where a preserved name is the name of a container.** -/
theorem preserved_eq_containerName_iff {node lab other : String} :
    preserved (containerName lab node) = containerName other node ↔
      other = lab ++ "-old" ∧ OldNode node := by
  rw [oldNode_iff, ← String.toList_inj]
  simp only [preserved, containerName, String.toList_append, List.append_assoc]
  constructor
  · intro h
    have hlength : other.toList.length = lab.toList.length + 4 := by
      have := congrArg List.length h
      simp only [List.length_append] at this
      have hold : "-old".toList.length = 4 := rfl
      omega
    obtain ⟨front, hfront⟩ : ∃ front, other.toList = lab.toList ++ front := by
      have hprefix : lab.toList <+: other.toList :=
        List.prefix_of_prefix_length_le ⟨_, rfl⟩ ⟨_, h.symm⟩ (by omega)
      obtain ⟨front, hfront⟩ := hprefix
      exact ⟨front, hfront.symm⟩
    rw [hfront, List.append_assoc] at h
    rw [hfront, List.length_append] at hlength
    have hshift : front ++ '-' :: node.toList = '-' :: node.toList ++ "-old".toList :=
      (List.append_cancel_left h).symm
    obtain ⟨a, b, c, d, rfl⟩ := List.length_eq_four.mp (show front.length = 4 by omega)
    simp only [List.cons_append, List.nil_append, List.cons.injEq] at hshift
    obtain ⟨rfl, hshift⟩ := hshift
    obtain ⟨hold, hall⟩ := allOld_of_shift hshift
    refine ⟨String.toList_inj.mp ?_, hall⟩
    rw [hfront, hold, String.toList_append]
    rfl
  · rintro ⟨rfl, hall⟩
    have hshift := shift_of_allOld hall
    rw [String.toList_append, List.append_assoc]
    exact congrArg (lab.toList ++ ·) hshift.symm

/-! ## What the tasks of a lab leave alone -/

/-- What is under the name stays what it is. -/
def Node.SameContainer (name : String) (n n' : Node) : Prop := n'.containers name = n.containers name

instance {name : String} : IsPreorder Node (Node.SameContainer name) where
  refl _ := rfl
  trans _ _ _ h h' := Eq.trans h' h

/-- What a recreate does is done under the name of the lab and under the preserved one. -/
theorem movesAside_sameContainer {name other : String} (hname : name ≠ other)
    (hstale : preserved name ≠ other) : MovesAside (Node.SameContainer other) name where
  remove _ := Node.containers_remove_of_ne hname.symm
  create _ _ := Node.containers_create_of_ne hname.symm
  setRunning _ _ := Node.containers_setRunning_of_ne hname.symm
  clear _ := Node.containers_remove_of_ne hstale.symm
  aside _ := Node.containers_rename_of_ne hname.symm hstale.symm
  back _ := Node.containers_rename_of_ne hstale.symm hname.symm

/-- A recreate of a lab that has a container leaves nothing under the preserved name, unless it
does not return. -/
theorem recreate_clears_preserved {fate : RecreateStep → Fate Extent}
    {rollback : RollbackStep → Fate Extent} {lab name : String} {students : List String} {n n' : Node}
    (hthere : (n.containers name).isSome)
    (hrun : (recreateContainer fate rollback lab name students).run n = (.ok (), n')) :
    n'.containers (preserved name) = none := by
  have hpromoted : ((promoted fate name n).recordAptUpgrade lab 0).containers (preserved name) =
      none := by
    unfold promoted
    rw [if_pos hthere, Node.containers_recordAptUpgrade, Node.containers_remove_self]
  have hhandler (x : Handler Unit) (m : Node) : Prog.wp x (fun _ _ => True) (fun _ _ => True) m :=
    Prog.wp_after.mpr trivial
  have hwp : Prog.wp (recreateContainer fate rollback lab name students)
      (fun _ n' => n'.containers (preserved name) = none) (fun _ _ => True) n := by
    rw [wp_recreate]
    refine trial_intro (fun step _ f hnot => ?_) hpromoted
    -- a step that does not go through ends in a handler or in nothing, and not in a return
    cases step with
    | prepare | ready =>
      cases f with
      | done => exact absurd rfl hnot
      | fails extent => exact hhandler _ _
      | dies extent => trivial
    | run =>
      cases f with
      | done => trivial
      | fails extent => exact hhandler _ _
      | dies extent => trivial
    | _ => trivial
  have hreturned := Prog.wp_returned hwp (a := ()) (by rw [hrun])
  unfold Prog.after at hreturned
  rwa [hrun] at hreturned

/-! ## Where the tasks keep apart -/

/-- **The tasks of a lab leave the container of another lab alone, unless its name is the preserved
one.** -/
theorem keepsApart_iff {node lab other : String} (hne : lab ≠ other) :
    KeepsApart node lab other ↔ ¬ (other = lab ++ "-old" ∧ OldNode node) := by
  rw [← preserved_eq_containerName_iff]
  constructor
  · exact KeepsApart.stale
  · intro hstale
    have hnames : containerName lab node ≠ containerName other node :=
      fun h => hne (containerName_inj.mp h)
    have hmoves : MovesAside (Node.SameContainer (containerName other node)) (containerName lab node) :=
      movesAside_sameContainer hnames hstale
    exact {
      names := hnames
      stale := hstale
      create := fun fate n => respects_createLab fate hmoves.toMoves n
      destroy := fun fate n => respects_destroyLab fate hmoves.toMoves n
      recreate := fun fate rollback students n => respects_recreate hmoves (fun _ => rfl) n }

/-- **Where the names collide, a recreate that returns has removed the container of the other
lab.** -/
theorem recreate_removes_other {node lab other : String} (hcollide : other = lab ++ "-old")
    (hnode : OldNode node) {fate : RecreateStep → Fate Extent} {rollback : RollbackStep → Fate Extent}
    {students : List String} {n n' : Node} (hthere : (n.containers (containerName lab node)).isSome)
    (hrun : (recreateContainer fate rollback lab (containerName lab node) students).run n =
      (.ok (), n')) : n'.containers (containerName other node) = none := by
  rw [← preserved_eq_containerName_iff.mpr ⟨hcollide, hnode⟩]
  exact recreate_clears_preserved hthere hrun

/-! ## Two labs -/

/-- The tasks of `bio` and the container of `bio-old`, on a node that is not called `old`. -/
theorem keepsApart_iff_bio : "bio" ≠ "bio-old" ∧ KeepsApart "gpu-old" "bio" "bio-old" :=
  ⟨by decide, (keepsApart_iff (by decide)).mpr (by decide)⟩

/-- A node with the containers of two labs. -/
def twoLabs : Node := (bioNode.create "bio-old" true).create "bio-old-old" true

/-- The node `old`: a recreate of the lab `bio` removes the container of the lab `bio-old`. -/
theorem recreate_removes_bio_old :
    isValidNodeName "old" = true ∧ isValidLabName "bio" = true ∧ isValidLabName "bio-old" = true ∧
    (∃ id, twoLabs.Runs (containerName "bio" "old") id) ∧
    (∃ id, twoLabs.Runs (containerName "bio-old" "old") id) ∧
    (∃ n', (recreateContainer (fun _ => .done) rollsBack "bio" (containerName "bio" "old") []).run
        twoLabs = (.ok (), n') ∧ n'.containers (containerName "bio-old" "old") = none) ∧
    ¬ KeepsApart "old" "bio" "bio-old" := by
  refine ⟨by decide, by decide, by decide, ⟨1, by decide⟩, ⟨2, by decide⟩, ⟨_, rfl, by decide⟩, ?_⟩
  intro h
  exact h.stale (by decide)

end MassDeployment.Agent
