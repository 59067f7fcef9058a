import Mathlib.Data.List.DropRight
import Mathlib.Data.List.Infix
import Mathlib.Data.List.Nodup
import MassDeployment.Lib.Text

set_option autoImplicit false

/-! # A tree of files with symbolic links

An entry is known by the names on the way to it from the root. A path that is given as a text is
walked name by name: a link on the way is followed, `..` goes up from where the walk is and not from
where the text was, and every name but the last must be that of a directory. The last name is not
followed where the entry itself is meant, unless a slash stands behind it.

A walk through fewer entries comes to the same place or fails.
-/

namespace FileTree

abbrev Path := List String

inductive Kind where
  | file
  | dir
  | link (target : String)
  deriving DecidableEq

inductive Errno where
  | noEntry | notDirectory | isDirectory | notEmpty | invalid | tooManyLinks
  deriving DecidableEq

/-- The entries below the root; every one is in a directory. -/
@[ext] structure Tree where
  entries : List (Path × Kind)
  nodup : (entries.map Prod.fst).Nodup
  parent : ∀ e ∈ entries, e.1 ≠ [] ∧ (e.1.dropLast = [] ∨ (e.1.dropLast, Kind.dir) ∈ entries)

namespace Tree

def entry (t : Tree) (p : Path) : Option Kind := if p = [] then some .dir else t.entries.lookup p

/-- Every entry of `t'` is one of `t`. -/
def Within (t' t : Tree) : Prop := ∀ p k, t'.entry p = some k → t.entry p = some k

/-- The entries that are kept, with the directories they are in. -/
def keep (t : Tree) (f : Path → Bool) (h : ∀ p, p ≠ [] → f p = true → f p.dropLast = true) : Tree where
  entries := t.entries.filter fun e => f e.1
  nodup := t.nodup.sublist (List.filter_sublist.map Prod.fst)
  parent e he := by
    obtain ⟨hmem, hf⟩ := List.mem_filter.mp he
    obtain ⟨hne, hparent⟩ := t.parent e hmem
    refine ⟨hne, hparent.imp_right fun hdir => ?_⟩
    exact List.mem_filter.mpr ⟨hdir, h e.1 hne hf⟩

/-- Without an entry and all that is below it. -/
def without (p : Path) (t : Tree) : Tree :=
  t.keep (fun q => !p.isPrefixOf q) (by
    intro q _ hq
    simp only [Bool.not_eq_true', ← Bool.not_eq_true, List.isPrefixOf_iff_prefix] at hq ⊢
    exact fun h => hq (h.trans (List.dropLast_prefix q)))

/-- Without what is below an entry. -/
def emptied (p : Path) (t : Tree) : Tree :=
  t.keep (fun q => !p.isPrefixOf q || q == p) (by
    intro q hne hq
    have hshort : q.dropLast.length < q.length := by
      have hpos := List.length_pos_iff.mpr hne
      rw [List.length_dropLast]
      omega
    simp only [Bool.or_eq_true, Bool.not_eq_true', ← Bool.not_eq_true, List.isPrefixOf_iff_prefix,
      beq_iff_eq] at hq ⊢
    refine .inl fun hbelow => ?_
    rcases hq with hq | rfl
    · exact hq (hbelow.trans (List.dropLast_prefix q))
    · have hle := hbelow.length_le
      omega)

/-- Nothing is below the entry. -/
def isEmpty (p : Path) (t : Tree) : Bool := t.entries.all fun e => !p.isPrefixOf e.1 || e.1 == p

end Tree

/-! ## Walking -/

/-- The parts of a text between the slashes. -/
def parts (text : String) : List String := Text.split '/' text

/-- Where the walk of a text begins. -/
def start (at' : Path) (text : String) : Path := if text.toList.head? = some '/' then [] else at'

/-- Walk on from `p`, where `links` more links may be followed and `follow` walks on from a link. -/
def walkWith (t : Tree) (follow : Path → List String → Except Errno (ℕ × Path)) (links : ℕ) :
    Path → List String → Except Errno (ℕ × Path)
  | p, [] => .ok (links, p)
  | p, c :: rest =>
    if t.entry p ≠ some .dir then .error .notDirectory
    else if c = "" || c = "." then walkWith t follow links p rest
    else if c = ".." then walkWith t follow links p.dropLast rest
    else
      match t.entry (p ++ [c]) with
      | none => .error .noEntry
      | some (.link target) => follow (start p target) (parts target ++ rest)
      | some _ => walkWith t follow links (p ++ [c]) rest

/-- Walk on from `p`, and follow `links` links at most; how many are left in the end, and where the
walk ends. -/
def walk (t : Tree) : ℕ → Path → List String → Except Errno (ℕ × Path)
  | 0 => walkWith t (fun _ _ => .error .tooManyLinks) 0
  | links + 1 => walkWith t (walk t links) (links + 1)

/-- A walk may follow 40 links. -/
def maxLinks : ℕ := 40

section

variable (t : Tree) (cwd : Path) (text : String)

/-- Where a text leads, with every link followed. -/
def resolve : Except Errno Path := (walk t maxLinks (start cwd text) (parts text)).map Prod.snd

/-- The names that the last one of a text may not be where an entry is meant. -/
def special (c : String) : Bool := c = "" || c = "." || c = ".."

/-- An entry by its directory and its name; the name is not followed. -/
def locate (init : List String) (c : String) : Except Errno Path := do
  let (_, p) ← walk t maxLinks (start cwd text) init
  if t.entry p = some .dir then return p ++ [c] else throw .notDirectory

/-- The entry that a text means: its last name is followed only where a slash is behind it. -/
def meant : Except Errno Path :=
  let last := (parts text).getLastD ""
  if special last then resolve t cwd text else locate t cwd text (parts text).dropLast last

/-- `lstat`: the entry, and what it is. -/
def lstat : Except Errno (Path × Kind) :=
  if text = "" then .error .noEntry
  else
    match meant t cwd text with
    | .error e => .error e
    | .ok p =>
      match t.entry p with
      | none => .error .noEntry
      | some kind => .ok (p, kind)

/-- The parts without the slashes at the end. -/
def trimmed : List String := (parts text).rdropWhile (· == "")

/-- The entry that a text names; a slash at the end is let pass. -/
def place : Except Errno Path :=
  let last := (trimmed text).getLastD ""
  if special last then throw .invalid else locate t cwd text (trimmed text).dropLast last

/-- `unlink`. -/
def unlink : Except Errno Unit × Tree :=
  match place t cwd text with
  | .error e => (.error e, t)
  | .ok p =>
    match t.entry p with
    | none => (.error .noEntry, t)
    | some .dir => (.error .isDirectory, t)
    | some _ =>
      if (parts text).getLastD "" = "" then (.error .notDirectory, t) else (.ok (), t.without p)

/-- `rmdir`. -/
def rmdir : Except Errno Unit × Tree :=
  match place t cwd text with
  | .error e => (.error e, t)
  | .ok p =>
    match t.entry p with
    | none => (.error .noEntry, t)
    | some .dir => if t.isEmpty p then (.ok (), t.without p) else (.error .notEmpty, t)
    | some _ => (.error .notDirectory, t)

/-- Remove what is in a directory and then the directory. -/
def rmtree : Except Errno Unit × Tree :=
  match lstat t cwd text with
  | .error e => (.error e, t)
  | .ok (p, .dir) => rmdir (t.emptied p) cwd text
  | .ok _ => (.error .notDirectory, t)

end

/-! ## Entries -/

namespace Tree

variable {t t' : Tree} {p q : Path} {k : Kind}

@[simp] theorem entry_root : t.entry [] = some .dir := rfl

theorem lookup_filter (f : Path → Bool) (l : List (Path × Kind)) :
    (l.filter fun e => f e.1).lookup q = if f q then l.lookup q else none := by
  induction l with
  | nil => simp
  | cons e l ih =>
      obtain ⟨r, k⟩ := e
      by_cases hq : q = r
      · subst hq
        cases hf : f q with
        | true => simp [hf]
        | false => simpa [hf] using ih
      · have hne : (q == r) = false := by simpa using hq
        cases hf : f r with
        | true => simpa [List.lookup_cons, hne, hf] using ih
        | false => simpa [List.lookup_cons, hne, hf] using ih

theorem entry_keep {f : Path → Bool} {h : ∀ p, p ≠ [] → f p = true → f p.dropLast = true}
    (hq : q ≠ []) : (t.keep f h).entry q = if f q then t.entry q else none := by
  unfold entry
  rw [if_neg hq, if_neg hq]
  exact lookup_filter f t.entries

theorem isPrefixOf_eq_false : p.isPrefixOf q = false ↔ ¬ p <+: q := by
  rw [← Bool.not_eq_true, List.isPrefixOf_iff_prefix]

theorem entry_without (hp : p ≠ []) :
    (t.without p).entry q = if p <+: q then none else t.entry q := by
  by_cases hq : q = []
  · subst hq
    rw [if_neg (by simpa using hp)]
    rfl
  · rw [without, entry_keep hq]
    by_cases h : p <+: q
    · rw [if_pos h, if_neg (by simpa using h)]
    · rw [if_neg h, if_pos (by simpa [isPrefixOf_eq_false] using h)]

theorem entry_emptied : (t.emptied p).entry q = if p <+: q ∧ q ≠ p then none else t.entry q := by
  by_cases hq : q = []
  · subst hq
    rw [if_neg (fun h => h.2 (List.prefix_nil.mp h.1).symm)]
    rfl
  · rw [emptied, entry_keep hq]
    by_cases h : p <+: q ∧ q ≠ p
    · rw [if_pos h, if_neg (by simpa using h)]
    · rw [if_neg h, if_pos]
      rw [not_and_or, not_not] at h
      simpa [isPrefixOf_eq_false] using h

theorem within_emptied : (t.emptied p).Within t := by
  intro q k h
  rw [entry_emptied] at h
  split at h
  · cases h
  · exact h

theorem entry_of_mem {e : Path × Kind} (he : e ∈ t.entries) : t.entry e.1 = some e.2 := by
  rw [entry, if_neg (t.parent e he).1, List.lookup_eq_some_iff]
  obtain ⟨before, after, hentries⟩ := List.append_of_mem he
  refine ⟨before, after, hentries, fun e' he' => bne_iff_ne.mpr ?_⟩
  have hnodup := t.nodup
  rw [hentries, List.map_append, List.nodup_append] at hnodup
  exact (hnodup.2.2 e'.1 (List.mem_map_of_mem he') e.1 (by simp)).symm

/-- What is in a directory is in one that is there. -/
theorem entry_dropLast (h : (t.entry p).isSome) : t.entry p.dropLast = some .dir := by
  by_cases hp : p = []
  · subst hp
    rfl
  · obtain ⟨k, hk⟩ := Option.isSome_iff_exists.mp h
    rw [entry, if_neg hp, List.lookup_eq_some_iff] at hk
    obtain ⟨before, after, hentries, -⟩ := hk
    have hmem : (p, k) ∈ t.entries := by simp [hentries]
    rcases (t.parent _ hmem).2 with hnil | hdir
    · rw [show p.dropLast = [] from hnil]
      rfl
    · exact entry_of_mem hdir

/-- Everything on the way to an entry is a directory. -/
theorem entry_prefix {ds : List String} (hne : ds ≠ []) (h : (t.entry (p ++ ds)).isSome) :
    t.entry p = some .dir := by
  induction ds using List.reverseRecOn with
  | nil => exact absurd rfl hne
  | append_singleton ds c ih =>
      have hdir : t.entry (p ++ ds) = some .dir := by
        have hparent := entry_dropLast h
        rwa [← List.append_assoc, List.dropLast_concat] at hparent
      by_cases hds : ds = []
      · subst hds
        simpa using hdir
      · exact ih hds (by rw [hdir]; rfl)

theorem emptied_eq_iff : t.emptied p = t ↔ t.isEmpty p = true := by
  rw [Tree.ext_iff, isEmpty, List.all_eq_true]
  exact List.filter_eq_self

theorem isEmpty_emptied : (t.emptied p).isEmpty p = true := by
  rw [isEmpty, List.all_eq_true]
  exact fun e he => (List.mem_filter.mp he).2

theorem without_emptied : (t.emptied p).without p = t.without p := by
  refine Tree.ext ?_
  show (t.entries.filter _).filter _ = t.entries.filter _
  rw [List.filter_filter]
  refine List.filter_congr fun e _ => ?_
  dsimp only
  cases p.isPrefixOf e.1 <;> simp

theorem without_ne (hp : p ≠ []) (h : (t.entry p).isSome) : t.without p ≠ t := by
  intro heq
  have hgone : (t.without p).entry p = none := by
    rw [entry_without hp, if_pos (List.prefix_refl p)]
  rw [heq] at hgone
  rw [hgone] at h
  cases h

theorem without_inj (hp : p ≠ []) (hq : q ≠ []) (hsome : (t.entry p).isSome)
    (hsome' : (t.entry q).isSome) (h : t.without p = t.without q) : p = q := by
  have key : ∀ {p q : Path}, p ≠ [] → q ≠ [] → (t.entry p).isSome → t.without p = t.without q →
      q <+: p := by
    intro p q hp hq hsome h
    have hgone : (t.without p).entry p = none := by
      rw [entry_without hp, if_pos (List.prefix_refl p)]
    rw [h, entry_without hq] at hgone
    by_contra hnot
    rw [if_neg hnot] at hgone
    rw [hgone] at hsome
    cases hsome
  have hqp := key hp hq hsome h
  have hpq := key hq hp hsome' h.symm
  exact hpq.eq_of_length_le hqp.length_le

end Tree

/-! ## Walks -/

section

variable {t t' : Tree} {n : ℕ} {p q cwd : Path} {c text : String} {cs ds : List String}
variable {r : ℕ × Path} {k : Kind}

/-- How a walk goes on from a link, with `n` links left. -/
def follow (t : Tree) : ℕ → Path → List String → Except Errno (ℕ × Path)
  | 0 => fun _ _ => .error .tooManyLinks
  | n + 1 => walk t n

theorem walk_eq : walk t n = walkWith t (follow t n) n := by
  cases n <;> rfl

@[simp] theorem walk_nil : walk t n p [] = .ok (n, p) := by
  cases n <;> rfl

theorem walk_cons : walk t n p (c :: cs) =
    if t.entry p ≠ some .dir then .error .notDirectory
    else if c = "" || c = "." then walk t n p cs
    else if c = ".." then walk t n p.dropLast cs
    else
      match t.entry (p ++ [c]) with
      | none => .error .noEntry
      | some (.link target) => follow t n (start p target) (parts target ++ cs)
      | some _ => walk t n (p ++ [c]) cs := by
  rw [walk_eq]
  rfl

/-- **A walk through some parts and then through others.** -/
theorem walk_append : walk t n p (cs ++ ds) =
    (do
      let r ← walk t n p cs
      walk t r.1 r.2 ds) := by
  -- the links that may be followed carry the induction, the parts the one inside
  have key : ∀ n, (∀ p cs, follow t n p (cs ++ ds) = follow t n p cs >>= fun r => walk t r.1 r.2 ds) →
      ∀ p cs, walk t n p (cs ++ ds) = walk t n p cs >>= fun r => walk t r.1 r.2 ds := by
    intro n hfollow p cs
    induction cs generalizing p with
    | nil => simp [bind, Except.bind]
    | cons c cs ih =>
        rw [List.cons_append, walk_cons, walk_cons]
        split
        · rfl
        split
        · exact ih p
        split
        · exact ih p.dropLast
        split
        · rfl
        · rw [← List.append_assoc, hfollow]
        · exact ih (p ++ [c])
  induction n generalizing p cs with
  | zero => exact key 0 (fun _ _ => rfl) p cs
  | succ n ih => exact key (n + 1) (fun _ _ => ih) p cs

/-- A walk through fewer entries. -/
theorem walk_mono (h : t'.Within t) (hwalk : walk t' n p cs = .ok r) : walk t n p cs = .ok r := by
  have key : ∀ n, (∀ p cs r, follow t' n p cs = .ok r → follow t n p cs = .ok r) →
      ∀ p cs r, walk t' n p cs = .ok r → walk t n p cs = .ok r := by
    intro n hfollow p cs r hwalk
    induction cs generalizing p with
    | nil => simpa using hwalk
    | cons c cs ih =>
        rw [walk_cons] at hwalk ⊢
        split at hwalk
        · cases hwalk
        rename_i hdir
        rw [not_not] at hdir
        rw [if_neg (by simp [h p .dir hdir])]
        split at hwalk
        · rename_i hstay
          rw [if_pos hstay]
          exact ih p hwalk
        rename_i hstay
        rw [if_neg hstay]
        split at hwalk
        · rename_i hup
          rw [if_pos hup]
          exact ih p.dropLast hwalk
        rename_i hup
        rw [if_neg hup]
        split at hwalk
        · cases hwalk
        · rename_i target hlink
          rw [h _ _ hlink]
          exact hfollow _ _ _ hwalk
        · rename_i kind hnot hentry
          rw [h _ _ hentry]
          cases kind with
          | file | dir => exact ih (p ++ [c]) hwalk
          | link target => exact absurd rfl (hnot target)
  induction n generalizing p cs r with
  | zero => exact key 0 (fun _ _ _ => nofun) p cs r hwalk
  | succ n ih => exact key (n + 1) (fun _ _ _ => ih) p cs r hwalk

/-! ## Where a text leads -/

theorem special_eq_false : special c = false ↔ c ≠ "" ∧ c ≠ "." ∧ c ≠ ".." := by
  simp [special, and_assoc]

theorem locate_eq_ok : locate t cwd text cs c = .ok q ↔ ∃ links p,
    walk t maxLinks (start cwd text) cs = .ok (links, p) ∧ t.entry p = some .dir ∧ q = p ++ [c] := by
  unfold locate
  cases hwalk : walk t maxLinks (start cwd text) cs with
  | error e => simp [bind, Except.bind]
  | ok r =>
      obtain ⟨links, p⟩ := r
      by_cases hdir : t.entry p = some .dir
      · simp [bind, Except.bind, pure, Except.pure, hdir, eq_comm]
      · simp [bind, Except.bind, throw, throwThe, MonadExceptOf.throw, hdir]

theorem parts_ne_nil : parts text ≠ [] := Text.split_ne_nil '/' text

theorem parts_eq : (parts text).dropLast ++ [(parts text).getLastD ""] = parts text := by
  rw [List.getLastD_eq_getLast?, List.getLast?_eq_some_getLast parts_ne_nil, Option.getD_some]
  exact List.dropLast_append_getLast parts_ne_nil

theorem lstat_eq_ok : lstat t cwd text = .ok (p, k) ↔
    text ≠ "" ∧ t.entry p = some k ∧ meant t cwd text = .ok p := by
  unfold lstat
  by_cases hempty : text = ""
  · simp [hempty]
  rw [if_neg hempty]
  cases meant t cwd text with
  | error e => simp
  | ok p' =>
      dsimp only
      cases hentry : t.entry p' with
      | none =>
          simp only [reduceCtorEq, false_iff]
          rintro ⟨-, hsome, h⟩
          rw [← Except.ok.inj h, hentry] at hsome
          cases hsome
      | some k' =>
          simp only [Except.ok.injEq, Prod.mk.injEq]
          constructor
          · rintro ⟨rfl, rfl⟩
            exact ⟨hempty, hentry, rfl⟩
          · rintro ⟨-, hsome, rfl⟩
            exact ⟨rfl, Option.some.inj (hentry.symm.trans hsome)⟩

/-- The last part of a walk that is not that of a link. -/
theorem walk_last (hdir : t.entry p = some .dir) (hc : special c = false)
    (hentry : t.entry (p ++ [c]) = some k) (hk : ∀ target, k ≠ .link target) :
    walk t n p [c] = .ok (n, p ++ [c]) := by
  obtain ⟨hempty, hdot, hup⟩ := special_eq_false.mp hc
  rw [walk_cons, if_neg (by simp [hdir]), if_neg (by simp [hempty, hdot]), if_neg hup, hentry]
  cases k with
  | file | dir => exact walk_nil
  | link target => exact absurd rfl (hk target)

/-- A way that is written out without links. -/
theorem walk_names (hcs : ∀ c ∈ cs, special c = false) (hdir : t.entry (p ++ cs) = some .dir) :
    walk t n p cs = .ok (n, p ++ cs) := by
  induction cs generalizing p with
  | nil => simp
  | cons c cs ih =>
      have hp : t.entry p = some .dir := Tree.entry_prefix (List.cons_ne_nil c cs) (by rw [hdir]; rfl)
      have hrest : t.entry (p ++ [c] ++ cs) = some .dir := by simpa using hdir
      have hstep : t.entry (p ++ [c]) = some .dir := by
        by_cases hnil : cs = []
        · subst hnil
          simpa using hrest
        · exact Tree.entry_prefix hnil (by rw [hrest]; rfl)
      calc walk t n p (c :: cs)
          = walk t n (p ++ [c]) cs := by
            rw [← List.singleton_append, walk_append, walk_last hp (hcs c (by simp)) hstep nofun]
            rfl
        _ = .ok (n, p ++ [c] ++ cs) := ih (fun c' hc' => hcs c' (by simp [hc'])) hrest
        _ = .ok (n, p ++ c :: cs) := by simp

/-- A slash, a dot or two dots at the end are behind a directory. -/
theorem entry_of_walk_special (hc : special c = true) (hwalk : walk t n p [c] = .ok r) :
    t.entry r.2 = some .dir := by
  rw [walk_cons] at hwalk
  split at hwalk
  · cases hwalk
  rename_i hdir
  rw [not_not] at hdir
  split at hwalk
  · rw [walk_nil, Except.ok.injEq] at hwalk
    rw [← hwalk]
    exact hdir
  rename_i hstay
  split at hwalk
  · rw [walk_nil, Except.ok.injEq] at hwalk
    rw [← hwalk]
    exact Tree.entry_dropLast (by rw [hdir]; rfl)
  · rename_i hup
    simp [special, hup] at hc
    simp [hc] at hstay

theorem resolve_eq_ok : resolve t cwd text = .ok p ↔
    ∃ links, walk t maxLinks (start cwd text) (parts text) = .ok (links, p) := by
  unfold resolve
  cases walk t maxLinks (start cwd text) (parts text) with
  | error e => simp [Except.map]
  | ok r => simp [Except.map, Prod.ext_iff]

theorem resolve_of_lstat (h : lstat t cwd text = .ok (p, k)) (hk : ∀ target, k ≠ .link target) :
    resolve t cwd text = .ok p := by
  obtain ⟨-, hentry, hwhere⟩ := lstat_eq_ok.mp h
  unfold meant at hwhere
  dsimp only at hwhere
  split at hwhere
  · exact hwhere
  · rename_i hlast
    obtain ⟨links, d, hwalk, hdir, rfl⟩ := locate_eq_ok.mp hwhere
    refine resolve_eq_ok.mpr ⟨links, ?_⟩
    have hstep := walk_last (n := links) hdir (Bool.eq_false_iff.mpr hlast) hentry hk
    calc walk t maxLinks (start cwd text) (parts text)
        = walk t maxLinks (start cwd text)
            ((parts text).dropLast ++ [(parts text).getLastD ""]) := by rw [parts_eq]
      _ = walk t links d [(parts text).getLastD ""] := by
          rw [walk_append, hwalk]
          rfl
      _ = _ := hstep

theorem entry_of_resolve_special (hlast : special ((parts text).getLastD "") = true)
    (h : resolve t cwd text = .ok p) : t.entry p = some .dir := by
  obtain ⟨links, hwalk⟩ := resolve_eq_ok.mp h
  rw [← parts_eq, walk_append] at hwalk
  cases hinit : walk t maxLinks (start cwd text) (parts text).dropLast with
  | error e =>
      rw [hinit] at hwalk
      cases hwalk
  | ok r =>
      rw [hinit] at hwalk
      exact entry_of_walk_special hlast hwalk

/-- What a text means that is not a directory, it names. -/
theorem place_of_lstat (h : lstat t cwd text = .ok (p, k)) (hk : k ≠ .dir) :
    place t cwd text = .ok p ∧ (parts text).getLastD "" ≠ "" := by
  obtain ⟨-, hentry, hwhere⟩ := lstat_eq_ok.mp h
  unfold meant at hwhere
  dsimp only at hwhere
  split at hwhere
  · rename_i hlast
    have hdir := entry_of_resolve_special hlast hwhere
    rw [hentry, Option.some.injEq] at hdir
    exact absurd hdir hk
  · rename_i hlast
    have hne : (parts text).getLastD "" ≠ "" := (special_eq_false.mp (Bool.eq_false_iff.mpr hlast)).1
    have htrimmed : trimmed text = parts text := by
      rw [trimmed, List.rdropWhile_eq_self_iff]
      intro hnil hempty
      rw [List.getLastD_eq_getLast?, List.getLast?_eq_some_getLast hnil] at hne
      exact hne (by simpa using hempty)
    refine ⟨?_, hne⟩
    unfold place
    rw [htrimmed, if_neg hlast]
    exact hwhere

/-- The slashes at the end. -/
theorem exists_parts_eq (l : List String) : ∃ m, l = l.rdropWhile (· == "") ++ List.replicate m "" := by
  induction l using List.reverseRecOn with
  | nil => exact ⟨0, rfl⟩
  | append_singleton l c ih =>
      by_cases hc : c = ""
      · subst hc
        obtain ⟨m, hm⟩ := ih
        refine ⟨m + 1, ?_⟩
        rw [List.rdropWhile_concat_pos _ _ _ (by simp), List.replicate_succ', ← List.append_assoc, ← hm]
      · refine ⟨0, ?_⟩
        rw [List.rdropWhile_concat_neg _ _ _ (by simpa using hc)]
        simp

theorem rdropWhile_slashes {init : List String} (hc : c ≠ "") (m : ℕ) :
    (init ++ [c] ++ List.replicate m "").rdropWhile (· == "") = init ++ [c] := by
  induction m with
  | zero =>
      rw [List.replicate_zero, List.append_nil]
      exact List.rdropWhile_concat_neg _ _ _ (by simpa using hc)
  | succ m ih =>
      rw [List.replicate_succ', ← List.append_assoc, List.rdropWhile_concat_pos _ _ _ (by simp), ih]

theorem place_eq_ok : place t cwd text = .ok q ↔ ∃ init c m, special c = false ∧
    parts text = init ++ [c] ++ List.replicate m "" ∧ locate t cwd text init c = .ok q := by
  unfold place
  dsimp only
  constructor
  · intro h
    split at h
    · cases h
    · rename_i hlast
      rw [Bool.not_eq_true] at hlast
      obtain ⟨m, hm⟩ := exists_parts_eq (parts text)
      have hne : trimmed text ≠ [] := by
        intro hnil
        rw [hnil] at hlast
        cases hlast
      have htrimmed : (trimmed text).dropLast ++ [(trimmed text).getLastD ""] = trimmed text := by
        rw [List.getLastD_eq_getLast?, List.getLast?_eq_some_getLast hne, Option.getD_some]
        exact List.dropLast_append_getLast hne
      refine ⟨_, _, m, hlast, ?_, h⟩
      rw [htrimmed]
      exact hm
  · rintro ⟨init, c, m, hc, hparts, hlocate⟩
    have htrimmed : trimmed text = init ++ [c] := by
      rw [trimmed, hparts, rdropWhile_slashes (special_eq_false.mp hc).1]
    rw [htrimmed]
    simpa [hc] using hlocate

/-- The directory that a text names is the one it means. -/
theorem eq_of_place (h : lstat t cwd text = .ok (p, .dir)) (hplace : place t cwd text = .ok q)
    (hdir : t.entry q = some .dir) : q = p := by
  obtain ⟨links, hwalk⟩ := resolve_eq_ok.mp (resolve_of_lstat h nofun)
  obtain ⟨init, c, m, hc, hparts, hlocate⟩ := place_eq_ok.mp hplace
  obtain ⟨links', d, hinit, hd, rfl⟩ := locate_eq_ok.mp hlocate
  have hslashes : ∀ m, walk t links' (d ++ [c]) (List.replicate m "") = .ok (links', d ++ [c]) := by
    intro m
    induction m with
    | zero => exact walk_nil
    | succ m ih =>
        rw [List.replicate_succ, walk_cons, if_neg (by simp [hdir]), if_pos (by simp)]
        exact ih
  have hlast : walk t links' d [c] = .ok (links', d ++ [c]) := walk_last hd hc hdir nofun
  have hwhole : walk t maxLinks (start cwd text) (parts text) = .ok (links', d ++ [c]) := by
    rw [hparts, walk_append, walk_append, hinit]
    show (walk t links' d [c] >>= fun r => walk t r.1 r.2 (List.replicate m "")) = _
    rw [hlast]
    exact hslashes m
  rw [hwhole, Except.ok.injEq, Prod.mk.injEq] at hwalk
  exact hwalk.2

theorem place_mono (h : t'.Within t) (hplace : place t' cwd text = .ok q) :
    place t cwd text = .ok q := by
  obtain ⟨init, c, m, hc, hparts, hlocate⟩ := place_eq_ok.mp hplace
  obtain ⟨links, d, hwalk, hd, rfl⟩ := locate_eq_ok.mp hlocate
  refine place_eq_ok.mpr ⟨init, c, m, hc, hparts, locate_eq_ok.mpr ?_⟩
  exact ⟨links, d, walk_mono h hwalk, h _ _ hd, rfl⟩

/-! ## Removals -/

theorem ne_nil_of_place (h : place t cwd text = .ok p) : p ≠ [] := by
  obtain ⟨init, c, m, -, -, hlocate⟩ := place_eq_ok.mp h
  obtain ⟨-, d, -, -, rfl⟩ := locate_eq_ok.mp hlocate
  simp

theorem unlink_of_lstat (h : lstat t cwd text = .ok (p, k)) (hk : k ≠ .dir) :
    unlink t cwd text = (.ok (), t.without p) := by
  obtain ⟨-, hentry, -⟩ := lstat_eq_ok.mp h
  obtain ⟨hplace, hlast⟩ := place_of_lstat h hk
  unfold unlink
  rw [hplace]
  dsimp only
  rw [hentry]
  cases k with
  | file | link target => exact if_neg hlast
  | dir => exact absurd rfl hk

theorem rmtree_of_place (h : lstat t cwd text = .ok (p, .dir))
    (hplace : place (t.emptied p) cwd text = .ok p) :
    rmtree t cwd text = (.ok (), t.without p) := by
  obtain ⟨-, hentry, -⟩ := lstat_eq_ok.mp h
  have hdir : (t.emptied p).entry p = some .dir := by
    rw [Tree.entry_emptied, if_neg (by simp), hentry]
  unfold rmtree rmdir
  rw [h]
  dsimp only
  rw [hplace]
  dsimp only
  rw [hdir]
  dsimp only
  rw [if_pos Tree.isEmpty_emptied, Tree.without_emptied]

/-- **The contents go first**: where the directory cannot be removed by the text, they are gone all
the same. -/
theorem rmtree_of_not_place (h : lstat t cwd text = .ok (p, .dir))
    (hplace : place (t.emptied p) cwd text ≠ .ok p) :
    ∃ e, rmtree t cwd text = (.error e, t.emptied p) := by
  unfold rmtree rmdir
  rw [h]
  dsimp only
  cases hq : place (t.emptied p) cwd text with
  | error e => exact ⟨e, rfl⟩
  | ok q =>
      dsimp only
      cases hentry : (t.emptied p).entry q with
      | none => exact ⟨_, rfl⟩
      | some k =>
          cases k with
          | file | link target => exact ⟨_, rfl⟩
          | dir =>
              have hsame : q = p := eq_of_place h (place_mono Tree.within_emptied hq)
                (Tree.within_emptied _ _ hentry)
              exact absurd (hsame ▸ hq) hplace

end

end FileTree
