import MassDeployment.Controller.Students
import MassDeployment.Lib.Dict

set_option autoImplicit false

/-! # Announcements (`announcements.ts`, `template.ts`)

A message goes to the students, the PIs, and whoever is picked from among them. The recipients are
collected in maps whose keys are the addresses, as they are stored but for the blanks around them.
-/

namespace MassDeployment

open Js

/-! ## Templates -/

/-- A template, cut at its tokens. -/
inductive Piece where
  | text (c : Char)
  | token (key : String)

/-- What a token is: its delimiters, the characters of a key, and which texts of them are keys. -/
structure TokenSyntax where
  opening : Char
  closing : Char
  inKey : Char → Bool
  isKey : List Char → Bool

/-- Cut a template behind its first characters, which belong to a token. -/
def TokenSyntax.cut (x : TokenSyntax) : Nat → List Char → List Piece
  | _, [] => []
  | n + 1, _ :: rest => x.cut n rest
  | 0, c :: rest =>
    let key := rest.takeWhile x.inKey
    if c = x.opening ∧ x.isKey key ∧ (rest.drop key.length).head? = some x.closing then
      .token (String.ofList key) :: x.cut (key.length + 1) rest
    else .text c :: x.cut 0 rest

/-- Substitute the tokens that have a value. -/
def TokenSyntax.fill (x : TokenSyntax) (values : Dict String String) (template : String) : String :=
  String.ofList ((x.cut 0 template.toList).flatMap fun
    | .text c => [c]
    | .token key =>
      match values.lookup key with
      | some value => value.toList
      | none => x.opening :: key.toList ++ [x.closing])

def isUpper (c : Char) : Bool := 'A' ≤ c && c ≤ 'Z'

/-- `/\{(\w+)\}/`. -/
def braceToken : TokenSyntax where
  opening := Char.ofNat 123
  closing := Char.ofNat 125
  inKey c := isAlnum c || c == '_'
  isKey key := !key.isEmpty

/-- `BRACKET_TOKEN_RE`: an upper-case letter, then more of them, digits and a few signs. -/
def bracketToken : TokenSyntax where
  opening := '['
  closing := ']'
  inKey c := isUpper c || ('0' ≤ c && c ≤ '9') || c == ' ' || c == '_' || c == '/' || c == '-'
  isKey key := key.head?.any isUpper

def renderTemplate (template : String) (vars : Dict String String) : String :=
  braceToken.fill vars template

def extractBracketTokens (text : String) : List String :=
  ((bracketToken.cut 0 text.toList).filterMap fun
    | .text _ => none
    | .token key => some key).eraseDups

def fillBracketTokens (text : String) (values : Dict String String) : String :=
  bracketToken.fill values text

/-! ## Recipients -/

inductive Audience where
  | students
  | pis
  deriving DecidableEq

def Audience.name : Audience → String
  | .students => "students"
  | .pis => "pis"

structure Recipient where
  email : String
  name : String
  deriving DecidableEq

/-- A row of the query of an audience. -/
structure AudienceRow where
  email : String
  name : Option String
  username : Option String := none

/-- `TRIM(text)` of SQLite: the spaces at both ends. -/
def sqlTrim (text : String) : String :=
  String.ofList ((text.toList.dropWhile (· == ' ')).reverse.dropWhile (· == ' ')).reverse

/-- `email IS NOT NULL AND TRIM(email) <> ''`. -/
def addressable (email : Option String) : Bool := email.any fun e => sqlTrim e != ""

/-- The rows of an audience: students by username, labs by the name of the PI, those without one
first. -/
def audienceRows (d : Db) : Audience → List AudienceRow
  | .students => (orderBy StudentRow.username (d.students.select fun r => addressable r.email)).map
      fun r => { email := r.email.getD "", name := r.name, username := some r.username }
  | .pis =>
    let labs := d.labs.select fun l => addressable l.piEmail
    (labs.filter (fun l => l.piName.isNone) ++
        orderBy (fun l => l.piName.getD "") (labs.filter fun l => l.piName.isSome)).map
      fun l => { email := l.piEmail.getD "", name := l.piName }

/-- The recipient of a row, by the first name that is not blank. -/
def recipientOf (h : Host) (r : AudienceRow) : Recipient :=
  let email := h.trim r.email
  { email
    name := (trimmedOrNull h r.name).getD ((trimmedOrNull h r.username).getD email) }

def audienceRecipients (h : Host) (d : Db) (a : Audience) : List Recipient :=
  let rows := ((audienceRows d a).map (recipientOf h)).filter fun r => r.email != ""
  (Dict.addAll [] (rows.map fun r => (r.email, r))).map Prod.snd

inductive PersonKind where
  | user
  | pi

structure Person extends Recipient where
  kind : PersonKind

/-- What a send asks its surroundings. -/
structure SendEnv where
  host : Host
  now : Nat
  /-- `a.localeCompare(b) <= 0`. -/
  localeLe : String → String → Bool
  smtpConfigured : Bool
  /-- `sendMail(recipient, subject, text)` reports the mail as sent. -/
  sent : String → String → String → Bool

/-- The map of `listAnnouncementPeople`. -/
def peopleByEmail (h : Host) (d : Db) : Dict String Person :=
  let users := (audienceRecipients h d .students).map fun r => (r.email, ⟨r, .user⟩)
  let pis := (audienceRecipients h d .pis).map fun r => (r.email, ⟨r, .pi⟩)
  (Dict.ofRows users).addAll pis

def listAnnouncementPeople (env : SendEnv) (d : Db) : List Person :=
  ((peopleByEmail env.host d).map Prod.snd).mergeSort fun a b => env.localeLe a.name b.name

/-! ## A send -/

structure AnnouncementInput where
  subject : String
  body : String
  audiences : List Audience
  individuals : List String := []
  placeholders : Dict String String := []
  /-- The name and the address of the admin. -/
  sender : Option (String × String) := none
  actor : Option String := none

/-- A call of `sendMail`. -/
structure AnnouncementMail where
  recipient : String
  subject : String
  body : String

structure AnnouncementRow where
  ts : Nat
  actor : Option String
  audiences : String
  subject : String
  body : String
  recipients : Nat
  sent : Nat
  skipped : Bool

structure Announcement where
  mails : List AnnouncementMail
  row : AnnouncementRow

/-- The union of the audiences. -/
def audienceUnion (h : Host) (d : Db) (audiences : List Audience) : Dict String Recipient :=
  audiences.foldl (fun byEmail a =>
    byEmail.addAll ((audienceRecipients h d a).map fun r => (r.email, r))) []

/-- Add the people who are picked; an address that nobody known has is refused. -/
def addPicked (known : Dict String Person) (byEmail : Dict String Recipient) :
    List String → Except String (Dict String Recipient)
  | [] => .ok byEmail
  | email :: rest =>
    match known.lookup email with
    | none => .error s!"unknown recipient: {email}"
    | some person => addPicked known (byEmail.addNew email ⟨email, person.name⟩) rest

/-- The bracket tokens without a value. -/
def missingTokens (h : Host) (input : AnnouncementInput) (subject body : String) : List String :=
  (extractBracketTokens (subject ++ "\n" ++ body)).filter fun t =>
    (trimmedOrNull h (input.placeholders.lookup t)).isNone

/-- What a recipient is written. -/
def announcementMail (input : AnnouncementInput) (subject body : String) (r : Recipient) :
    AnnouncementMail :=
  let senderVars := match input.sender with
    | some (name, email) => [("sender", name), ("sender_email", email)]
    | none => []
  let vars := senderVars ++ [("name", r.name), ("email", r.email)]
  ⟨r.email, renderTemplate subject vars, renderTemplate body vars⟩

def sendAnnouncement (env : SendEnv) (d : Db) (input : AnnouncementInput) :
    Except String Announcement :=
  let subject := env.host.trim input.subject
  let body := env.host.trim input.body
  let individuals := input.individuals.eraseDups
  let missing := missingTokens env.host input subject body
  let names := ", ".intercalate (missing.map fun t => "[" ++ t ++ "]")
  if subject = "" then .error "subject is required"
  else if body = "" then .error "message is required"
  else if missing ≠ [] then .error s!"fill in the {names} placeholder(s)"
  else if input.audiences = [] ∧ individuals = [] then
    .error "pick at least one audience or recipient"
  else do
    let subject := fillBracketTokens subject input.placeholders
    let body := fillBracketTokens body input.placeholders
    let known := if individuals = [] then []
      else Dict.ofRows ((listAnnouncementPeople env d).map fun p => (p.email, p))
    let byEmail ← addPicked known (audienceUnion env.host d input.audiences) individuals
    let recipients := byEmail.map Prod.snd
    let skipped := !env.smtpConfigured
    let mails := if skipped then [] else recipients.map (announcementMail input subject body)
    let picked := individuals.length
    return {
      mails
      row := {
        ts := env.now
        actor := input.actor
        audiences := ",".intercalate (input.audiences.map Audience.name ++
          if individuals = [] then [] else [s!"{picked} picked"])
        subject, body
        recipients := recipients.length
        sent := mails.countP fun m => env.sent m.recipient m.subject m.body
        skipped } }

/-! ## Whom a send reaches -/

/-- The address is stored for a member of the audience. -/
def Db.Stored (d : Db) (e : String) : Audience → Prop
  | .students => ∃ r ∈ d.students.rows, r.email = some e
  | .pis => ∃ l ∈ d.labs.rows, l.piEmail = some e

/-- What the string functions of the language do to the texts below. -/
structure Host.TextLaws (h : Host) : Prop where
  trim_trim : ∀ s, h.trim (h.trim s) = h.trim s
  lower_lower : ∀ s, h.toLowerCase (h.toLowerCase s) = h.toLowerCase s
  trim_lower : ∀ s, h.trim (h.toLowerCase (h.trim s)) = h.toLowerCase (h.trim s)
  lower_blank : ∀ s, h.toLowerCase s = "" ↔ s = ""
  /-- A space is blank. -/
  trim_spaces : ∀ s, sqlTrim s = "" → h.trim s = ""

/-- An address without capital letters. -/
def Host.Plain (h : Host) (e : String) : Prop := h.toLowerCase (h.trim e) = h.trim e

/-- All that is stored is such an address. -/
def Db.PlainAddresses (d : Db) (h : Host) : Prop := ∀ a e, d.Stored e a → h.Plain e

section

variable {h : Host} {d : Db}

theorem addressable_some {email : Option String} (hemail : addressable email = true) :
    ∃ e, email = some e ∧ sqlTrim e ≠ "" := by
  obtain ⟨e, rfl, he⟩ := Option.any_eq_true _ _ |>.mp hemail
  exact ⟨e, rfl, by simpa using he⟩

theorem mem_audienceRows {a : Audience} {e : String} :
    (∃ row ∈ audienceRows d a, row.email = e) ↔ d.Stored e a ∧ sqlTrim e ≠ "" := by
  cases a with
  | students =>
      constructor
      · rintro ⟨row, hrow, rfl⟩
        obtain ⟨r, hr, rfl⟩ := List.mem_map.mp hrow
        obtain ⟨hmem, hemail⟩ := Table.mem_select.mp (mem_orderBy hr)
        obtain ⟨e, he, hne⟩ := addressable_some hemail
        rw [he]
        exact ⟨⟨r, hmem, he⟩, hne⟩
      · rintro ⟨⟨r, hmem, he⟩, hne⟩
        refine ⟨_, List.mem_map_of_mem ((orderBy_perm _ _).mem_iff.mpr
          (Table.mem_select.mpr ⟨hmem, ?_⟩)), ?_⟩
        · rw [he]
          exact bne_iff_ne.mpr hne
        · rw [he]
          rfl
  | pis =>
      have hlabs : ∀ l, l ∈ (d.labs.select fun l => addressable l.piEmail).filter
            (fun l => l.piName.isNone) ++ orderBy (fun l : LabRow => l.piName.getD "")
              ((d.labs.select fun l => addressable l.piEmail).filter fun l => l.piName.isSome) ↔
          l ∈ d.labs.rows ∧ addressable l.piEmail = true := by
        intro l
        rw [List.mem_append, (orderBy_perm _ _).mem_iff, List.mem_filter, List.mem_filter,
          Table.mem_select]
        cases l.piName <;> simp
      constructor
      · rintro ⟨row, hrow, rfl⟩
        obtain ⟨l, hl, rfl⟩ := List.mem_map.mp hrow
        obtain ⟨hmem, hemail⟩ := (hlabs l).mp hl
        obtain ⟨e, he, hne⟩ := addressable_some hemail
        rw [he]
        exact ⟨⟨l, hmem, he⟩, hne⟩
      · rintro ⟨⟨l, hmem, he⟩, hne⟩
        refine ⟨_, List.mem_map_of_mem ((hlabs l).mpr ⟨hmem, ?_⟩), ?_⟩
        · rw [he]
          exact bne_iff_ne.mpr hne
        · rw [he]
          rfl

/-- The addresses of an audience: what is stored for it, without the blanks around it. -/
theorem mem_audience (hlaws : h.TextLaws) {a : Audience} {e : String} :
    e ∈ (audienceRecipients h d a).map Recipient.email ↔
      e ≠ "" ∧ ∃ stored, d.Stored stored a ∧ h.trim stored = e := by
  unfold audienceRecipients
  dsimp only
  rw [Dict.map_keyed Recipient.email fun entry hentry => ?_, Dict.mem_keys_addAll]
  · constructor
    · rintro (hnil | hmem)
      · cases hnil
      · rw [List.map_map] at hmem
        obtain ⟨r, hr, rfl⟩ := List.mem_map.mp hmem
        obtain ⟨hr, hne⟩ := List.mem_filter.mp hr
        obtain ⟨row, hrow, rfl⟩ := List.mem_map.mp hr
        exact ⟨bne_iff_ne.mp hne, row.email, (mem_audienceRows.mp ⟨row, hrow, rfl⟩).1, rfl⟩
    · rintro ⟨hne, stored, hstored, rfl⟩
      obtain ⟨row, hrow, rfl⟩ := mem_audienceRows.mpr
        ⟨hstored, fun hspaces => hne (hlaws.trim_spaces stored hspaces)⟩
      refine .inr ?_
      rw [List.map_map]
      exact List.mem_map_of_mem (f := Prod.fst ∘ fun r : Recipient => (r.email, r))
        (List.mem_filter.mpr ⟨List.mem_map_of_mem hrow, (bne_iff_ne (a := h.trim row.email)).mpr hne⟩)
  · rcases Dict.mem_addAll hentry with hnil | hmem
    · cases hnil
    · obtain ⟨r, -, rfl⟩ := List.mem_map.mp hmem
      rfl

theorem mem_people {e : String} :
    e ∈ (peopleByEmail h d).map Prod.fst ↔
      e ∈ (audienceRecipients h d .students).map Recipient.email ∨
        e ∈ (audienceRecipients h d .pis).map Recipient.email := by
  unfold peopleByEmail
  rw [Dict.mem_keys_addAll, Dict.mem_keys_ofRows, List.map_map, List.map_map]
  rfl

/-- A person goes by the address. -/
theorem email_people {entry : String × Person} (hentry : entry ∈ peopleByEmail h d) :
    entry.2.email = entry.1 := by
  rcases Dict.mem_addAll hentry with hmem | hmem
  · obtain ⟨r, -, heq⟩ := List.mem_map.mp (Dict.mem_of_mem_ofRows hmem)
    rw [← heq]
  · obtain ⟨r, -, heq⟩ := List.mem_map.mp hmem
    rw [← heq]

theorem mem_announcementPeople {env : SendEnv} {e : String} :
    e ∈ (listAnnouncementPeople env d).map (fun p => p.email) ↔
      e ∈ (peopleByEmail env.host d).map Prod.fst := by
  unfold listAnnouncementPeople
  rw [((List.mergeSort_perm _ _).map _).mem_iff,
    Dict.map_keyed (fun p : Person => p.email) fun _ hentry => email_people hentry]

/-- A map whose keys are the addresses of its recipients. -/
structure ByEmail (byEmail : Dict String Recipient) : Prop where
  keyed : ∀ entry ∈ byEmail, entry.2.email = entry.1
  nodup : (byEmail.map Prod.fst).Nodup

theorem byEmail_addAll {byEmail : Dict String Recipient} (hb : ByEmail byEmail)
    (rs : List Recipient) : ByEmail (byEmail.addAll (rs.map fun r => (r.email, r))) where
  keyed entry hentry := by
    rcases Dict.mem_addAll hentry with hmem | hmem
    · exact hb.keyed entry hmem
    · obtain ⟨r, -, rfl⟩ := List.mem_map.mp hmem
      rfl
  nodup := Dict.nodup_addAll hb.nodup _

theorem mem_addAll_recipients {byEmail : Dict String Recipient} {rs : List Recipient}
    {e : String} : e ∈ (byEmail.addAll (rs.map fun r => (r.email, r))).map Prod.fst ↔
      e ∈ byEmail.map Prod.fst ∨ e ∈ rs.map Recipient.email := by
  rw [Dict.mem_keys_addAll, List.map_map]
  rfl

theorem audienceUnion_spec (audiences : List Audience) :
    ByEmail (audienceUnion h d audiences) ∧ ∀ e, e ∈ (audienceUnion h d audiences).map Prod.fst ↔
      ∃ a ∈ audiences, e ∈ (audienceRecipients h d a).map Recipient.email := by
  have hfold : ∀ byEmail : Dict String Recipient, ByEmail byEmail →
      ByEmail (audiences.foldl (fun byEmail a =>
          byEmail.addAll ((audienceRecipients h d a).map fun r => (r.email, r))) byEmail) ∧
        ∀ e, e ∈ (audiences.foldl (fun byEmail a =>
            byEmail.addAll ((audienceRecipients h d a).map fun r => (r.email, r)))
            byEmail).map Prod.fst ↔
          e ∈ byEmail.map Prod.fst ∨
            ∃ a ∈ audiences, e ∈ (audienceRecipients h d a).map Recipient.email := by
    induction audiences with
    | nil => exact fun byEmail hb => ⟨hb, fun e => by simp⟩
    | cons a audiences ih =>
        intro byEmail hb
        obtain ⟨hend, hmem⟩ := ih _ (byEmail_addAll hb (audienceRecipients h d a))
        refine ⟨hend, fun e => ?_⟩
        rw [List.foldl_cons, hmem e, mem_addAll_recipients, List.exists_mem_cons_iff]
        tauto
  obtain ⟨hb, hmem⟩ := hfold [] ⟨nofun, List.nodup_nil⟩
  refine ⟨hb, fun e => (hmem e).trans ?_⟩
  simp

/-- The people who are picked are added, if all are known. -/
theorem addPicked_spec {known : Dict String Person} {individuals : List String}
    (hknown : ∀ e ∈ individuals, e ∈ known.map Prod.fst) {byEmail : Dict String Recipient}
    (hb : ByEmail byEmail) : ∃ all, addPicked known byEmail individuals = .ok all ∧ ByEmail all ∧
      ∀ e, e ∈ all.map Prod.fst ↔ e ∈ byEmail.map Prod.fst ∨ e ∈ individuals := by
  induction individuals generalizing byEmail with
  | nil => exact ⟨byEmail, rfl, hb, fun e => by simp⟩
  | cons email rest ih =>
      obtain ⟨person, hlookup⟩ := Dict.lookup_of_key (hknown email List.mem_cons_self)
      have hnew : ByEmail (byEmail.addNew email ⟨email, person.name⟩) := by
        refine ⟨fun entry hentry => ?_, Dict.nodup_addNew hb.nodup _ _⟩
        rcases Dict.mem_addNew hentry with rfl | hmem
        · rfl
        · exact hb.keyed entry hmem
      obtain ⟨all, hall, hend, hmem⟩ :=
        ih (fun e he => hknown e (List.mem_cons_of_mem _ he)) hnew
      refine ⟨all, ?_, hend, fun e => ?_⟩
      · rw [addPicked, hlookup]
        exact hall
      · rw [hmem e, Dict.mem_keys_addNew, List.mem_cons]
        tauto

/-- What a send needs beside people who are known: texts without gaps, and somebody to reach. -/
structure AnnouncementInput.Ready (h : Host) (input : AnnouncementInput) : Prop where
  subject : h.trim input.subject ≠ ""
  body : h.trim input.body ≠ ""
  filled : missingTokens h input (h.trim input.subject) (h.trim input.body) = []
  somebody : input.audiences ≠ [] ∨ input.individuals ≠ []

/-- Nobody is mailed twice, and everyone of the audiences and of those who are picked is mailed. -/
structure ReachesOnce (h : Host) (d : Db) (input : AnnouncementInput)
    (mails : List AnnouncementMail) : Prop where
  once : mails.Pairwise fun m m' =>
    normalizeEmail h (some m.recipient) ≠ normalizeEmail h (some m'.recipient)
  audiences : ∀ a ∈ input.audiences, ∀ e, d.Stored e a → normalizeEmail h (some e) ≠ none →
    ∃ m ∈ mails, normalizeEmail h (some m.recipient) = normalizeEmail h (some e)
  picked : ∀ e ∈ input.individuals, ∃ m ∈ mails, m.recipient = e

theorem eraseDups_eq_nil {l : List String} : l.eraseDups = [] ↔ l = [] := by
  simp only [List.eq_nil_iff_forall_not_mem, List.mem_eraseDups]

/-- An address of somebody known is normalised, where what is stored has no capitals. -/
theorem normalize_known (hlaws : h.TextLaws) (hplain : d.PlainAddresses h) {a : Audience}
    {e : String} (he : e ∈ (audienceRecipients h d a).map Recipient.email) :
    normalizeEmail h (some e) = some e := by
  obtain ⟨hne, stored, hstored, rfl⟩ := (mem_audience hlaws).mp he
  have hlower : h.toLowerCase (h.trim (h.trim stored)) = h.trim stored := by
    rw [hlaws.trim_trim]
    exact hplain a stored hstored
  unfold normalizeEmail
  dsimp only
  rw [hlower, if_neg hne]

theorem normalize_trim (hlaws : h.TextLaws) (e : String) :
    normalizeEmail h (some (h.trim e)) = normalizeEmail h (some e) := by
  unfold normalizeEmail
  dsimp only
  rw [hlaws.trim_trim]

/-- A send goes to the union of the audiences and of those who are picked. -/
theorem sendAnnouncement_spec {env : SendEnv} {input : AnnouncementInput}
    (hsmtp : env.smtpConfigured = true) (hready : input.Ready env.host)
    (hknown : ∀ e ∈ input.individuals, ∃ p ∈ listAnnouncementPeople env d, p.email = e) :
    ∃ out, sendAnnouncement env d input = .ok out ∧
      (out.mails.map AnnouncementMail.recipient).Nodup ∧
      ∀ e, e ∈ out.mails.map AnnouncementMail.recipient ↔
        (∃ a ∈ input.audiences, e ∈ (audienceRecipients env.host d a).map Recipient.email) ∨
          e ∈ input.individuals := by
  obtain ⟨hunion, hmemUnion⟩ := audienceUnion_spec (h := env.host) (d := d) input.audiences
  have hpicked : ∃ all, addPicked (if input.individuals.eraseDups = [] then []
        else Dict.ofRows ((listAnnouncementPeople env d).map fun p => (p.email, p)))
        (audienceUnion env.host d input.audiences) input.individuals.eraseDups = .ok all ∧
      ByEmail all ∧ ∀ e, e ∈ all.map Prod.fst ↔
        e ∈ (audienceUnion env.host d input.audiences).map Prod.fst ∨
          e ∈ input.individuals.eraseDups := by
    refine addPicked_spec (fun e he => ?_) hunion
    rw [if_neg (List.ne_nil_of_mem he), Dict.mem_keys_ofRows, List.map_map]
    obtain ⟨p, hp, rfl⟩ := hknown e (List.mem_eraseDups.mp he)
    exact List.mem_map_of_mem (f := Prod.fst ∘ fun p : Person => (p.email, p)) hp
  obtain ⟨all, hall, hkeyed, hmem⟩ := hpicked
  have hrecipients : ∀ subject body, ((all.map Prod.snd).map
      (announcementMail input subject body)).map AnnouncementMail.recipient =
        all.map Prod.fst := fun subject body => by
    rw [List.map_map]
    exact Dict.map_keyed Recipient.email hkeyed.keyed
  have hsomebody : ¬ (input.audiences = [] ∧ input.individuals.eraseDups = []) := by
    rw [eraseDups_eq_nil]
    rintro ⟨ha, hi⟩
    exact hready.somebody.elim (· ha) (· hi)
  unfold sendAnnouncement
  dsimp only
  rw [if_neg hready.subject, if_neg hready.body, if_neg (not_not_intro hready.filled),
    if_neg hsomebody, hall, hsmtp]
  refine ⟨_, rfl, ?_, fun e => ?_⟩
  · show (((all.map Prod.snd).map (announcementMail input _ _)).map _).Nodup
    rw [hrecipients]
    exact hkeyed.nodup
  · show e ∈ ((all.map Prod.snd).map (announcementMail input _ _)).map _ ↔ _
    rw [hrecipients, hmem, hmemUnion, List.mem_eraseDups]

/-- **Where no address has capital letters, an announcement reaches everyone once.** -/
theorem reachesOnce_of_plain {env : SendEnv} {input : AnnouncementInput}
    (hlaws : env.host.TextLaws) (hplain : d.PlainAddresses env.host)
    (hsmtp : env.smtpConfigured = true) (hready : input.Ready env.host)
    (hknown : ∀ e ∈ input.individuals, ∃ p ∈ listAnnouncementPeople env d, p.email = e) :
    ∃ out, sendAnnouncement env d input = .ok out ∧
      ReachesOnce env.host d input out.mails := by
  obtain ⟨out, hout, hnodup, hmem⟩ := sendAnnouncement_spec hsmtp hready hknown
  have hpeople : ∀ e ∈ input.individuals,
      ∃ a, e ∈ (audienceRecipients env.host d a).map Recipient.email := by
    intro e he
    obtain ⟨p, hp, rfl⟩ := hknown e he
    rcases mem_people.mp (mem_announcementPeople.mp (List.mem_map_of_mem hp)) with h | h
    · exact ⟨.students, h⟩
    · exact ⟨.pis, h⟩
  have hnormal : ∀ m ∈ out.mails,
      normalizeEmail env.host (some m.recipient) = some m.recipient := by
    intro m hm
    rcases (hmem m.recipient).mp (List.mem_map_of_mem hm) with ⟨a, -, ha⟩ | hpick
    · exact normalize_known hlaws hplain ha
    · obtain ⟨a, ha⟩ := hpeople _ hpick
      exact normalize_known hlaws hplain ha
  refine ⟨out, hout, ?_, fun a ha e hstored hblank => ?_, fun e he => ?_⟩
  · refine (List.pairwise_map.mp hnodup).imp_of_mem fun {m m'} hm hm' hne heq => hne ?_
    rw [hnormal m hm, hnormal m' hm'] at heq
    exact Option.some.inj heq
  · -- the address that is mailed is the one that is stored, without the blanks around it
    have hne : env.host.trim e ≠ "" := by
      intro hempty
      refine hblank ?_
      unfold normalizeEmail
      exact if_pos ((hlaws.lower_blank _).mpr hempty)
    obtain ⟨m, hm, hrecipient⟩ := List.mem_map.mp
      ((hmem (env.host.trim e)).mpr (.inl ⟨a, ha, (mem_audience hlaws).mpr ⟨hne, e, hstored, rfl⟩⟩))
    exact ⟨m, hm, by rw [hrecipient, normalize_trim hlaws]⟩
  · exact List.mem_map.mp ((hmem e).mpr (.inr he))

end

end MassDeployment
