import MassDeployment.Agent.Datasets
import MassDeployment.Lib.FileTree

set_option autoImplicit false

/-! # Removing a child of the cold storage (`executors/coldfs.py`)

`remove_child` looks at a path in two ways. The check that it is a direct child reads the text, where
`..` takes the name before it away; what is removed is where the kernel's walk of the text ends, where
a link is followed before `..` goes up. The second check, that the path leads into the root, is not
made where the entry is a link, and it lets entries further down pass. And the contents of a directory
are removed before it turns out that the text does not name the directory.
-/

namespace MassDeployment.Agent

open FileTree

/-! ## Texts of paths -/

def isAbs (path : String) : Bool := path.toList.head? = some '/'

/-- `os.path.join` of two. -/
def joinPath (a b : String) : String :=
  if isAbs b then b
  else if a = "" || a.toList.getLast? = some '/' then a ++ b
  else a ++ "/" ++ b

/-- An absolute path in normal form; two slashes at its beginning stay two. -/
structure NormPath where
  double : Bool
  names : List String
  deriving DecidableEq

def normStep (names : List String) (c : String) : List String :=
  if c = "" || c = "." then names else if c = ".." then names.dropLast else names ++ [c]

/-- Two slashes at the beginning, and no third one. -/
def isDouble (path : String) : Bool :=
  match path.toList with
  | '/' :: '/' :: rest => rest.head? ≠ some '/'
  | _ => false

/-- `os.path.abspath`; `cwd` is what `os.getcwd` says, in names. -/
def abspath (cwd : Path) (path : String) : NormPath where
  double := isDouble path
  names := (parts path).foldl normStep (if isAbs path then [] else cwd)

/-- `os.path.dirname` of a path in normal form. -/
def NormPath.dirname (p : NormPath) : NormPath := { p with names := p.names.dropLast }

/-- `os.path.realpath` of a path that leads somewhere. What it makes of another one is not looked
at. -/
def realpath (t : Tree) (cwd : Path) (path : String) : Option Path := (FileTree.resolve t cwd path).toOption

/-- `real_path.startswith(real_root + os.sep)`, of two paths without links. -/
def isInside (root p : Path) : Bool := root ≠ [] && root.isPrefixOf p && p ≠ root

/-! ## `remove_child` -/

inductive RemoveError where
  | coldFs (message : String)
  | os (e : Errno)
  | embeddedNull
  deriving DecidableEq

/-- What the operating system refuses is raised. -/
def raised (outcome : Except Errno Unit × Tree) : Except RemoveError Unit × Tree :=
  (outcome.1.mapError .os, outcome.2)

/-- What is done after `lstat` answered. -/
def removeFound (t : Tree) (cwd : Path) (root path : String) :
    Except Errno (Path × Kind) → Except RemoveError Unit × Tree
  | .error .noEntry => (.ok (), t)
  | .error e => (.error (.os e), t)
  | .ok (_, .link _) => raised (unlink t cwd path)
  | .ok (_, kind) =>
    match realpath t cwd root, realpath t cwd path with
    | some realRoot, some realPath =>
      if !isInside realRoot realPath then
        (.error (.coldFs s!"refusing to remove '{path}': escaped '{root}'"), t)
      else if kind = .dir then raised (rmtree t cwd path)
      else raised (unlink t cwd path)
    | _, _ => (.error (.coldFs s!"refusing to remove '{path}': escaped '{root}'"), t)

/-- No path that is given to the operating system has this character in it. -/
def hasNull (path : String) : Bool := path.toList.contains (Char.ofNat 0)

/-- `remove_child`. -/
def removeChild (t : Tree) (cwd : Path) (root name : String) : Except RemoveError Unit × Tree :=
  let path := joinPath root name
  if hasNull root then (.error .embeddedNull, t)
  else if (abspath cwd path).dirname ≠ abspath cwd root then
    (.error (.coldFs s!"refusing to remove '{path}': not a direct child of '{root}'"), t)
  else if hasNull path then (.error .embeddedNull, t)
  else removeFound t cwd root path (lstat t cwd path)

/-- **A removal below a root that is the directory `d`**: nothing is changed, or the removal returns and
has removed the entry of the directory that the path names in text. -/
def Guarded (t : Tree) (cwd : Path) (root name : String) (d : Path) : Prop :=
  (removeChild t cwd root name).2 = t ∨
    (removeChild t cwd root name).1 = .ok () ∧ ∃ c,
      (abspath cwd (joinPath root name)).names = (abspath cwd root).names ++ [c] ∧
        (t.entry (d ++ [c])).isSome ∧ (removeChild t cwd root name).2 = t.without (d ++ [c])

/-- The path passes the check of its text, and the operating system takes it and the root. -/
structure Accepted (cwd : Path) (root name : String) : Prop where
  rootText : hasNull root = false
  child : (abspath cwd (joinPath root name)).dirname = abspath cwd root
  pathText : hasNull (joinPath root name) = false

/-- What the path means, at `p`, is in the directory itself: a link is, and so is anything else that
is below the directory at all; and a directory is still named by the path when its contents are gone,
or it is not, and has no contents. -/
def ConfinedAt (t : Tree) (cwd : Path) (path : String) (d p : Path) : Kind → Prop
  | .link _ => p.dropLast = d
  | .file => isInside d p = true → p.dropLast = d
  | .dir => isInside d p = true →
    if place (t.emptied p) cwd path = .ok p then p.dropLast = d else t.isEmpty p = true

/-- The path means nothing, or something in the directory itself. -/
def Confined (t : Tree) (cwd : Path) (path : String) (d : Path) : Prop :=
  ∀ p k, lstat t cwd path = .ok (p, k) → ConfinedAt t cwd path d p k

section

variable {t : Tree} {cwd d p : Path} {root name path : String} {k : Kind}

theorem normStep_of_not_special {names : List String} {c : String} (hc : special c = false) :
    normStep names c = names ++ [c] := by
  obtain ⟨hempty, hdot, hup⟩ := special_eq_false.mp hc
  rw [normStep, if_neg (by simp [hempty, hdot]), if_neg hup]

/-- The last name of a path is the last one of its text. -/
theorem names_of_place (h : place t cwd path = .ok p) :
    ∃ c, p = p.dropLast ++ [c] ∧ (abspath cwd path).names = (abspath cwd path).names.dropLast ++ [c] := by
  obtain ⟨init, c, m, hc, hparts, hlocate⟩ := place_eq_ok.mp h
  obtain ⟨-, q, -, -, rfl⟩ := locate_eq_ok.mp hlocate
  have hslashes : ∀ (m : ℕ) (names : List String),
      (List.replicate m "").foldl normStep names = names := by
    intro m names
    induction m with
    | zero => rfl
    | succ m ih => exact ih
  have hnames : (abspath cwd path).names =
      init.foldl normStep (if isAbs path then [] else cwd) ++ [c] := by
    rw [abspath, hparts, List.foldl_append, List.foldl_append, hslashes]
    exact normStep_of_not_special hc
  refine ⟨c, ?_, ?_⟩
  · rw [List.dropLast_concat]
  · rw [hnames, List.dropLast_concat]

/-- What is removed is in the directory. -/
theorem dropLast_of_guarded (hne : p ≠ []) (hsome : (t.entry p).isSome)
    (hrun : removeChild t cwd root name = (.ok (), t.without p))
    (h : Guarded t cwd root name d) : p.dropLast = d := by
  unfold Guarded at h
  rw [hrun] at h
  rcases h with hsame | ⟨-, c, -, hchild, hsame⟩
  · exact absurd hsame (Tree.without_ne hne hsome)
  · rw [Tree.without_inj hne (by simp) hsome hchild hsame, List.dropLast_concat]

/-- The removal of the entry that the path means. -/
theorem guarded_without (hdirname : (abspath cwd (joinPath root name)).dirname = abspath cwd root)
    (hplace : place t cwd (joinPath root name) = .ok p) (hentry : t.entry p = some k)
    (hrun : removeChild t cwd root name = (.ok (), t.without p)) :
    Guarded t cwd root name d ↔ p.dropLast = d := by
  have hsome : (t.entry p).isSome := by rw [hentry]; rfl
  constructor
  · exact dropLast_of_guarded (ne_nil_of_place hplace) hsome hrun
  · rintro rfl
    obtain ⟨c, hp, hnames⟩ := names_of_place hplace
    rw [show (abspath cwd (joinPath root name)).names.dropLast = (abspath cwd root).names from
      congrArg NormPath.names hdirname] at hnames
    rw [hp] at hsome
    unfold Guarded
    rw [hrun]
    exact .inr ⟨rfl, c, hnames, hsome, congrArg (t.without ·) hp⟩

theorem guarded_unchanged (hrun : (removeChild t cwd root name).2 = t) :
    Guarded t cwd root name d :=
  .inl hrun

/-- What is no link is removed if it is below the directory. -/
theorem removeFound_of_not_link (hroot : FileTree.resolve t cwd root = .ok d)
    (h : lstat t cwd path = .ok (p, k)) (hk : ∀ target, k ≠ .link target) :
    removeFound t cwd root path (.ok (p, k)) =
      if isInside d p then raised (if k = .dir then rmtree t cwd path else unlink t cwd path)
      else (.error (.coldFs s!"refusing to remove '{path}': escaped '{root}'"), t) := by
  have hreal : realpath t cwd root = some d := by
    rw [realpath, hroot]
    rfl
  have hpath : realpath t cwd path = some p := by
    rw [realpath, resolve_of_lstat h hk]
    rfl
  rw [removeFound, hreal, hpath]
  · dsimp only
    cases hin : isInside d p with
    | false => rw [if_pos (by rfl), if_neg nofun]
    | true =>
        rw [if_neg (by simp), if_pos rfl]
        split
        · rfl
        · rfl
  · exact fun target => hk target

theorem removeChild_of_accepted (h : Accepted cwd root name) : removeChild t cwd root name =
    removeFound t cwd root (joinPath root name) (lstat t cwd (joinPath root name)) := by
  unfold removeChild
  dsimp only
  rw [if_neg (by simp [h.rootText]), if_neg (not_not.mpr h.child), if_neg (by simp [h.pathText])]

theorem guarded_of_not_accepted (h : ¬ Accepted cwd root name) : Guarded t cwd root name d := by
  refine guarded_unchanged ?_
  unfold removeChild
  dsimp only
  split
  · rfl
  rename_i hroot
  split
  · rfl
  rename_i hchild
  split
  · rfl
  · rename_i hpath
    exact absurd ⟨by simpa using hroot, not_not.mp hchild, by simpa using hpath⟩ h

/-- What is there, by what it is. -/
theorem guarded_iff_confinedAt (hroot : FileTree.resolve t cwd root = .ok d)
    (haccepted : Accepted cwd root name) (hl : lstat t cwd (joinPath root name) = .ok (p, k)) :
    Guarded t cwd root name d ↔ ConfinedAt t cwd (joinPath root name) d p k := by
  have hrun := removeChild_of_accepted (t := t) haccepted
  rw [hl] at hrun
  have hentry : t.entry p = some k := (lstat_eq_ok.mp hl).2.1
  by_cases hlink : ∃ target, k = .link target
  · obtain ⟨target, rfl⟩ := hlink
    have hgone : removeChild t cwd root name = (.ok (), t.without p) := by
      rw [hrun, removeFound, unlink_of_lstat hl nofun]
      rfl
    exact guarded_without haccepted.child (place_of_lstat hl nofun).1 hentry hgone
  have hk : ∀ target, k ≠ .link target := fun target h => hlink ⟨target, h⟩
  rw [removeFound_of_not_link hroot hl hk] at hrun
  by_cases hin : isInside d p = true
  · rw [if_pos hin] at hrun
    cases k with
    | link target => exact absurd rfl (hk target)
    | file =>
        rw [if_neg nofun, unlink_of_lstat hl nofun] at hrun
        rw [ConfinedAt, forall_prop_of_true hin]
        exact guarded_without haccepted.child (place_of_lstat hl nofun).1 hentry hrun
    | dir =>
        rw [if_pos rfl] at hrun
        rw [ConfinedAt, forall_prop_of_true hin]
        by_cases hplace : place (t.emptied p) cwd (joinPath root name) = .ok p
        · rw [rmtree_of_place hl hplace] at hrun
          rw [if_pos hplace]
          exact guarded_without haccepted.child (place_mono Tree.within_emptied hplace) hentry hrun
        · -- the contents are gone, and the directory is not
          obtain ⟨e, hrmtree⟩ := rmtree_of_not_place hl hplace
          rw [hrmtree] at hrun
          rw [if_neg hplace, ← Tree.emptied_eq_iff]
          unfold Guarded
          rw [hrun]
          simp [raised, Except.mapError]
  · rw [if_neg hin] at hrun
    have hat : ConfinedAt t cwd (joinPath root name) d p k := by
      cases k with
      | file | dir => exact fun h => absurd h hin
      | link target => exact absurd rfl (hk target)
    exact iff_of_true (guarded_unchanged (by rw [hrun])) hat

theorem guarded_iff_confined (hroot : FileTree.resolve t cwd root = .ok d)
    (haccepted : Accepted cwd root name) :
    Guarded t cwd root name d ↔ Confined t cwd (joinPath root name) d := by
  cases hl : lstat t cwd (joinPath root name) with
  | error e =>
      have hconfined : Confined t cwd (joinPath root name) d := by
        intro p k h
        rw [hl] at h
        cases h
      refine iff_of_true (guarded_unchanged ?_) hconfined
      rw [removeChild_of_accepted haccepted, hl]
      cases e <;> rfl
  | ok found =>
      rw [guarded_iff_confinedAt hroot haccepted hl]
      constructor
      · intro h p k hl'
        rw [hl, Except.ok.injEq] at hl'
        rw [hl'] at h
        exact h
      · exact fun h => h _ _ hl

/-- A root that is written out without links, and a name that is one part. -/
theorem parts_joinPath (cwd : Path) {r : String} (hr : ∀ c ∈ parts r, special c = false)
    (hslash : '/' ∉ name.toList) :
    parts (joinPath ("/" ++ r) name) = "" :: parts r ++ [name] ∧
      FileTree.start cwd (joinPath ("/" ++ r) name) = [] := by
  have hslashes : ∀ a b : String, parts (a ++ "/" ++ b) = parts a ++ parts b := split_join
  have habs : isAbs name = false := by
    rw [isAbs, decide_eq_false_iff_not]
    exact fun h => hslash (List.mem_of_head? h)
  have hlast : ("/" ++ r).toList.getLast? ≠ some '/' := by
    intro h
    have hne : r.toList ≠ [] := by
      intro hnil
      rw [String.toList_eq_nil_iff.mp hnil] at hr
      exact absurd (hr "" (by decide)) (by decide)
    rw [String.toList_append, List.getLast?_append_of_ne_nil _ hne, List.getLast?_eq_some_iff] at h
    obtain ⟨init, hinit⟩ := h
    have hr' : r = .ofList init ++ "/" ++ "" := by
      rw [← String.toList_inj, hinit]
      simp
    rw [hr', hslashes] at hr
    exact absurd (hr "" (by simp [parts, Text.split])) (by decide)
  have hpath : joinPath ("/" ++ r) name = "" ++ "/" ++ (r ++ "/" ++ name) := by
    rw [joinPath, if_neg (by simp [habs]), if_neg]
    · simp [String.append_assoc]
    · simpa using hlast
  rw [hpath, hslashes, hslashes, show parts name = [name] from Text.split_of_not_mem hslash]
  refine ⟨rfl, ?_⟩
  rw [FileTree.start, if_pos]
  simp

/-- **What the callers give is guarded**: a name that is one part, below a root that no link leads
to. -/
theorem removeChild_guarded_of_part {r : String} (hr : ∀ c ∈ parts r, special c = false)
    (hdir : t.entry (parts r) = some .dir) (hname : special name = false)
    (hslash : '/' ∉ name.toList) : Guarded t cwd ("/" ++ r) name (parts r) := by
  by_cases haccepted : Accepted cwd ("/" ++ r) name
  case neg => exact guarded_of_not_accepted haccepted
  have hwalk : ∀ t' : Tree, t'.entry (parts r) = some .dir →
      walk t' maxLinks [] ("" :: parts r) = .ok (maxLinks, parts r) := by
    intro t' hdir'
    rw [walk_cons, if_neg (by simp), if_pos (by simp)]
    exact walk_names hr hdir'
  have hroot : FileTree.resolve t cwd ("/" ++ r) = .ok (parts r) := by
    refine resolve_eq_ok.mpr ⟨maxLinks, ?_⟩
    rw [show parts ("/" ++ r) = "" :: parts r from split_join "" r, FileTree.start,
      if_pos (by simp)]
    exact hwalk t hdir
  rw [guarded_iff_confined hroot haccepted]
  intro p k hl
  obtain ⟨hparts, hstart⟩ := parts_joinPath cwd hr hslash
  have hp : p = parts r ++ [name] := by
    obtain ⟨-, -, hmeant⟩ := lstat_eq_ok.mp hl
    have hlast : (parts (joinPath ("/" ++ r) name)).getLastD "" = name := by
      rw [hparts, List.getLastD_concat]
    unfold meant at hmeant
    dsimp only at hmeant
    rw [hlast, if_neg (by simp [hname]), hparts, List.dropLast_concat] at hmeant
    obtain ⟨links, d, hinit, -, rfl⟩ := locate_eq_ok.mp hmeant
    rw [hstart, hwalk t hdir, Except.ok.injEq, Prod.mk.injEq] at hinit
    rw [hinit.2]
  have hinside : p.dropLast = parts r := by rw [hp, List.dropLast_concat]
  cases k with
  | link target => exact hinside
  | file => exact fun _ => hinside
  | dir =>
      intro _
      rw [if_pos]
      · exact hinside
      -- the directory above is there when the contents are gone
      have hkept : (t.emptied p).entry (parts r) = some .dir := by
        rw [Tree.entry_emptied, if_neg, hdir]
        rintro ⟨hbelow, -⟩
        have hle := hbelow.length_le
        rw [hp, List.length_append, List.length_singleton] at hle
        omega
      refine place_eq_ok.mpr ⟨"" :: parts r, name, 0, hname, ?_, locate_eq_ok.mpr ?_⟩
      · rw [hparts, List.replicate_zero, List.append_nil]
      · refine ⟨maxLinks, parts r, ?_, hkept, hp⟩
        rw [hstart]
        exact hwalk _ hkept

theorem removeChild_guarded_of_username {r : String} (hr : ∀ c ∈ parts r, special c = false)
    (hdir : t.entry (parts r) = some .dir) (hname : validateUsername name = .ok ()) :
    Guarded t cwd ("/" ++ r) name (parts r) := by
  have hmatch := (validateUsername_eq_ok name).mp hname
  refine removeChild_guarded_of_part hr hdir ?_ (username_part hmatch)
  rw [special_eq_false]
  refine ⟨?_, ?_, ?_⟩
  all_goals
    rintro rfl
    exact absurd hmatch (by decide)

/-- **`remove_child` is guarded exactly where what it is given is confined.** -/
theorem removeChild_guarded_iff (t : Tree) (cwd : Path) (root name : String) {d : Path}
    (hroot : FileTree.resolve t cwd root = .ok d) :
    Guarded t cwd root name d ↔
      (Accepted cwd root name → Confined t cwd (joinPath root name) d) := by
  by_cases haccepted : Accepted cwd root name
  · rw [guarded_iff_confined hroot haccepted, forall_prop_of_true haccepted]
  · exact iff_of_true (guarded_of_not_accepted haccepted) fun h => absurd h haccepted

end

/-- A store with a student's directory, a link to it, and a link out of the store; and a link beside
where that leads. -/
def coldTree : Tree where
  entries := [(["srv"], .dir), (["srv", "cold"], .dir), (["srv", "cold", "ada"], .dir),
    (["srv", "cold", "ada", "thesis"], .file), (["srv", "cold", "old"], .link "ada"),
    (["srv", "cold", "sub"], .link "/out/d"), (["out"], .dir), (["out", "d"], .dir),
    (["out", "x"], .link "/etc")]
  nodup := by decide
  parent := by decide

/-- The directory of the student is in the store, and the path names it when it is empty. -/
theorem removeChild_guarded_iff_ada :
    removeChild coldTree [] "/srv/cold" "ada" = (.ok (), coldTree.without ["srv", "cold", "ada"]) ∧
      Guarded coldTree [] "/srv/cold" "ada" ["srv", "cold"] := by
  have hroot : FileTree.resolve coldTree [] "/srv/cold" = .ok ["srv", "cold"] := by decide +kernel
  refine ⟨Prod.ext (by decide +kernel) (Tree.ext (by decide +kernel)), ?_⟩
  refine (removeChild_guarded_iff coldTree [] "/srv/cold" "ada" hroot).mpr fun _ p k hfound => ?_
  have hada : lstat coldTree [] (joinPath "/srv/cold" "ada") =
      .ok (["srv", "cold", "ada"], .dir) := by decide +kernel
  rw [hada] at hfound
  cases hfound
  show isInside _ _ = true → if _ then _ else _
  decide +kernel

/-- A slash behind a link has the contents of the directory removed that it leads to. -/
theorem removeChild_behind_link : removeChild coldTree [] "/srv/cold" "old/" =
    (.error (.os .notDirectory), coldTree.emptied ["srv", "cold", "ada"]) :=
  Prod.ext (by decide +kernel) (Tree.ext (by decide +kernel))

/-- A link is followed before `..` goes up, and what is there is not in the store. -/
theorem removeChild_outside :
    ¬ ∀ (t : Tree) (cwd : Path) (root name : String) (d : Path),
      FileTree.resolve t cwd root = .ok d → Guarded t cwd root name d := by
  intro h
  have hroot : FileTree.resolve coldTree [] "/srv/cold" = .ok ["srv", "cold"] := by decide +kernel
  have hrun : removeChild coldTree [] "/srv/cold" "sub/../x" = (.ok (), coldTree.without ["out", "x"]) :=
    Prod.ext (by decide +kernel) (Tree.ext (by decide +kernel))
  have hsome : (coldTree.entry ["out", "x"]).isSome := by decide +kernel
  have hguarded := h coldTree [] "/srv/cold" "sub/../x" ["srv", "cold"] hroot
  have hout := dropLast_of_guarded (List.cons_ne_nil _ _) hsome hrun hguarded
  exact absurd hout (by decide)

end MassDeployment.Agent
