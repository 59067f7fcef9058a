import Mathlib.Data.List.Infix

set_option autoImplicit false

/-! # Encrypted backups (`backupcrypto.ts`, `backup.ts`, `db.ts`)

An encrypted backup is an envelope: six bytes of magic, the nonce, the tag and the ciphertext. The
cipher is the platform's AES-256-GCM, a parameter here; what is assumed of it is that it opens
nothing but what was sealed. The magic is not covered by the tag: it decides whether a blob is an
envelope at all, and a blob that is none is passed through.
-/

namespace MassDeployment

abbrev Bytes := List UInt8

/-- AES-256-GCM under the key derived from `BACKUP_KEY`, as the platform provides it. -/
structure Gcm where
  /-- `createCipheriv`, `update`, `final`, `getAuthTag`: the ciphertext and its tag. -/
  encipher : (iv plain : Bytes) → Bytes × Bytes
  /-- `createDecipheriv`, `setAuthTag`, `update`, `final`: the plaintext, or what is thrown. -/
  decipher : (iv tag ciphertext : Bytes) → Except String Bytes
  /-- The lengths of a tag `setAuthTag` takes: the full one, and on some versions of the platform
  shortened ones. -/
  tagLength : Nat → Bool

/-- What `backupcrypto.ts` takes from its environment. -/
structure BackupHost where
  /-- `env.backupKey`. -/
  backupKey : String
  gcm : Gcm

/-- **The cipher is ideal for a sealed backup.** The tag is full and a stream cipher makes the
ciphertext as long as the plaintext; the tag, whole or shortened to a length that is taken, opens
the ciphertext, and nothing else that the cipher opens differs from what was sealed. -/
structure Gcm.Ideal (gcm : Gcm) (iv plain : Bytes) : Prop where
  tag : (gcm.encipher iv plain).2.length = 16
  ciphertext : (gcm.encipher iv plain).1.length = plain.length
  full : gcm.tagLength 16 = true
  opens : ∀ tag, tag <+: (gcm.encipher iv plain).2 → gcm.tagLength tag.length = true →
    gcm.decipher iv tag (gcm.encipher iv plain).1 = .ok plain
  authentic : ∀ iv' tag ct p, gcm.decipher iv' tag ct = .ok p →
    iv' = iv ∧ ct = (gcm.encipher iv plain).1 ∧ tag <+: (gcm.encipher iv plain).2 ∧
      gcm.tagLength tag.length = true

/-! ## The envelope -/

/-- `MAGIC`: the text `LMBK1` and a zero byte. -/
def magic : Bytes := [76, 77, 66, 75, 49, 0]

def backupEncryptionEnabled (host : BackupHost) : Bool := host.backupKey != ""

/-- Encrypt a backup under a fresh nonce when there is a key. -/
def maybeEncryptBackup (host : BackupHost) (iv plain : Bytes) : Bytes :=
  if backupEncryptionEnabled host then
    magic ++ iv ++ (host.gcm.encipher iv plain).2 ++ (host.gcm.encipher iv plain).1
  else plain

def isEncryptedBackup (data : Bytes) : Bool := data.take 6 == magic

/-- Decrypt a downloaded backup; a blob without the envelope is returned unchanged. -/
def decryptBackup (host : BackupHost) (data : Bytes) : Except String Bytes :=
  if !isEncryptedBackup data then .ok data
  else if !backupEncryptionEnabled host then
    .error "backup is encrypted but BACKUP_KEY is not set"
  else host.gcm.decipher ((data.drop 6).take 12) ((data.drop 18).take 16) (data.drop 34)

/-! ## Restoring -/

/-- The database and the files next to it. -/
structure Files where
  db : Option Bytes := none
  wal : Option Bytes := none
  shm : Option Bytes := none
  /-- `<dbPath>.restore`. -/
  restore : Option Bytes := none

/-- The WebDAV target: whether there is one, the backups `listBackups` finds, and what a download
gives or throws. -/
structure Webdav where
  configured : Bool
  known : List String
  get : String → Except String Bytes

/-- Download a backup and stage it. -/
def stageRestore (host : BackupHost) (webdav : Webdav) (basename : String → String) (name : String)
    (files : Files) : Except String Unit × Files :=
  if !webdav.configured then (.error "WebDAV not configured", files)
  else if !webdav.known.contains (basename name) then (.error "Unknown backup name", files)
  else
    match webdav.get (basename name) with
    | .error e => (.error e, files)
    | .ok data =>
      match decryptBackup host data with
      | .error e => (.error e, files)
      | .ok plain => (.ok (), { files with restore := some plain })

/-- At the next boot a staged restore becomes the database. -/
def applyStagedRestore (files : Files) : Files :=
  match files.restore with
  | none => files
  | some staged => { db := some staged }

/-! ## The regions of an envelope -/

section

variable {host : BackupHost} {iv plain : Bytes}

/-- The regions of a blob that begins with the magic. -/
theorem eq_regions {data : Bytes} (h : isEncryptedBackup data = true) :
    data = magic ++ (data.drop 6).take 12 ++ (data.drop 18).take 16 ++ data.drop 34 := by
  have hmagic : data.take 6 = magic := by simpa [isEncryptedBackup] using h
  rw [← hmagic]
  simp only [List.append_assoc]
  conv_lhs => rw [← List.take_append_drop 6 data]
  congr 1
  conv_lhs => rw [← List.take_append_drop 12 (data.drop 6)]
  congr 1
  rw [List.drop_drop]
  conv_lhs => rw [← List.take_append_drop 16 (data.drop 18)]
  rw [List.drop_drop]

theorem decryptBackup_envelope (hkey : host.backupKey ≠ "") {data : Bytes}
    (h : isEncryptedBackup data = true) : decryptBackup host data =
      host.gcm.decipher ((data.drop 6).take 12) ((data.drop 18).take 16) (data.drop 34) := by
  simp [decryptBackup, h, backupEncryptionEnabled, hkey]

theorem maybeEncryptBackup_eq (hkey : host.backupKey ≠ "") : maybeEncryptBackup host iv plain =
    magic ++ iv ++ (host.gcm.encipher iv plain).2 ++ (host.gcm.encipher iv plain).1 := by
  simp [maybeEncryptBackup, backupEncryptionEnabled, hkey]

/-- The regions of an envelope with a full tag, or with a shortened one and nothing after it. -/
theorem regions (tag ct : Bytes) (hiv : iv.length = 12)
    (htag : tag.length = 16 ∨ tag.length ≤ 16 ∧ ct = []) :
    ((magic ++ iv ++ tag ++ ct).drop 6).take 12 = iv ∧
      ((magic ++ iv ++ tag ++ ct).drop 18).take 16 = tag ∧ (magic ++ iv ++ tag ++ ct).drop 34 = ct := by
  have hmagic : magic.length = 6 := rfl
  have hshort : tag.length ≤ 16 := by omega
  have hnone : ct.take (16 - tag.length) = [] := by
    rcases htag with htag | ⟨-, rfl⟩
    · rw [htag, Nat.sub_self, List.take_zero]
    · exact List.take_nil
  have hrest : ct.drop (16 - tag.length) = ct := by
    rcases htag with htag | ⟨-, rfl⟩
    · rw [htag, Nat.sub_self, List.drop_zero]
    · exact List.drop_nil
  have hdrop : (magic ++ iv).drop 18 = [] := by simp [hmagic, hiv]
  refine ⟨?_, ?_, ?_⟩
  · simp [hmagic, hiv]
  · rw [List.append_assoc, List.drop_append_of_le_length (by simp [hmagic, hiv]), hdrop,
      List.nil_append, List.take_append, List.take_of_length_le hshort, hnone, List.append_nil]
  · have hall : (magic ++ iv ++ tag).drop 34 = [] :=
      List.drop_eq_nil_of_le (by simp only [List.length_append, hmagic, hiv]; omega)
    rw [List.drop_append, hall, List.nil_append, List.length_append, List.length_append, hmagic, hiv,
      show 34 - (6 + 12 + tag.length) = 16 - tag.length by omega, hrest]

variable (hkey : host.backupKey ≠ "") (hiv : iv.length = 12) (ideal : host.gcm.Ideal iv plain)

include hkey

theorem isEncryptedBackup_sealed : isEncryptedBackup (maybeEncryptBackup host iv plain) = true := by
  rw [maybeEncryptBackup_eq hkey]
  simp [isEncryptedBackup, magic]

include hiv ideal

/-- **A backup is restored as it was.** -/
theorem decryptBackup_sealed :
    decryptBackup host (maybeEncryptBackup host iv plain) = .ok plain := by
  rw [decryptBackup_envelope hkey (isEncryptedBackup_sealed hkey), maybeEncryptBackup_eq hkey]
  obtain ⟨h₁, h₂, h₃⟩ := regions _ (host.gcm.encipher iv plain).1 hiv (.inl ideal.tag)
  rw [h₁, h₂, h₃]
  exact ideal.opens _ (List.prefix_refl _) (by rw [ideal.tag]; exact ideal.full)

/-- The blob is the envelope of an empty backup, cut within its tag at a length that is taken. -/
def ShortTag (gcm : Gcm) (plain sealedBackup data : Bytes) : Prop :=
  plain = [] ∧ ∃ k, k < 16 ∧ gcm.tagLength k = true ∧ data = sealedBackup.take (18 + k)

/-- **What the cipher opens.** A blob with the magic that is not the envelope itself is opened
exactly where it is the envelope of an empty backup with a shortened tag. -/
theorem decryptBackup_ok_iff {data : Bytes} (hne : data ≠ maybeEncryptBackup host iv plain)
    (henv : isEncryptedBackup data = true) :
    (∃ p, decryptBackup host data = .ok p) ↔
      ShortTag host.gcm plain (maybeEncryptBackup host iv plain) data := by
  have htag := ideal.tag
  have hregions := eq_regions henv
  rw [decryptBackup_envelope hkey henv]
  constructor
  · rintro ⟨p, hp⟩
    obtain ⟨h₁, h₂, h₃, hlen⟩ := ideal.authentic _ _ _ _ hp
    -- a full tag makes the blob the envelope
    have hshort : ((data.drop 18).take 16).length < 16 := by
      by_contra hfull
      have hsame : (data.drop 18).take 16 = (host.gcm.encipher iv plain).2 :=
        h₃.eq_of_length (by have := h₃.length_le; omega)
      exact hne (by rw [maybeEncryptBackup_eq hkey, ← hsame, ← h₂, ← h₁]; exact hregions)
    have hrest : data.drop 34 = [] := by
      rw [List.length_take, List.length_drop] at hshort
      exact List.drop_eq_nil_of_le (by omega)
    have hempty : plain = [] := by
      rw [← List.length_eq_zero_iff, ← ideal.ciphertext, ← h₂, hrest, List.length_nil]
    refine ⟨hempty, _, hshort, hlen, ?_⟩
    obtain ⟨rest, hprefix⟩ := h₃
    rw [maybeEncryptBackup_eq hkey, ← hprefix]
    conv_lhs => rw [hregions, hrest, h₁, List.append_nil]
    have hhead : (magic ++ iv ++ (data.drop 18).take 16).length =
        18 + ((data.drop 18).take 16).length := by
      simp only [List.length_append, hiv, show magic.length = 6 from rfl]
    rw [← hhead, ← List.append_assoc, List.append_assoc _ rest, List.take_left]
  · rintro ⟨rfl, k, hk, hlen, rfl⟩
    -- cut within the tag, the envelope is the head and a prefix of the tag
    have hnone : (host.gcm.encipher iv []).1 = [] := List.length_eq_zero_iff.mp ideal.ciphertext
    have hhead : (magic ++ iv).length = 18 := by
      simp only [List.length_append, hiv, show magic.length = 6 from rfl]
    have hcut : (maybeEncryptBackup host iv []).take (18 + k) =
        magic ++ iv ++ (host.gcm.encipher iv []).2.take k ++ [] := by
      rw [maybeEncryptBackup_eq hkey, hnone, List.append_nil, List.append_nil, ← hhead,
        List.take_length_add_append]
    have hlength : ((host.gcm.encipher iv []).2.take k).length = k := by
      rw [List.length_take, htag]
      omega
    obtain ⟨h₁, h₂, h₃⟩ := regions ((host.gcm.encipher iv []).2.take k) [] hiv
      (.inr ⟨by omega, rfl⟩)
    have hopen := ideal.opens _ (List.take_prefix k _) (by rwa [hlength])
    rw [hnone] at hopen
    exact ⟨[], by rw [hcut, h₁, h₂, h₃, hopen]⟩

omit hiv in
/-- What an altered blob opens to is the backup, if it opens at all. -/
theorem decryptBackup_ok {data p : Bytes} (henv : isEncryptedBackup data = true)
    (hp : decryptBackup host data = .ok p) : p = plain := by
  rw [decryptBackup_envelope hkey henv] at hp
  obtain ⟨h₁, h₂, h₃, hlen⟩ := ideal.authentic _ _ _ _ hp
  rw [h₁, h₂, ideal.opens _ h₃ hlen] at hp
  exact (Except.ok.inj hp).symm

end

/-! ## What a restore stages -/

/-- A restore of a known backup stages what the download decrypts to, or nothing. -/
theorem stageRestore_known {host : BackupHost} {webdav : Webdav} {basename : String → String}
    {name : String} {data : Bytes} {files : Files} (hconf : webdav.configured = true)
    (hknown : webdav.known.contains (basename name) = true)
    (hget : webdav.get (basename name) = .ok data) :
    (stageRestore host webdav basename name files).2 =
      match decryptBackup host data with
      | .error _ => files
      | .ok plain => { files with restore := some plain } := by
  unfold stageRestore
  simp only [hconf, hknown, hget, Bool.not_true, Bool.false_eq_true, if_false]
  cases decryptBackup host data <;> simp only

theorem applyStagedRestore_none {files : Files} (h : files.restore = none) :
    applyStagedRestore files = files := by
  unfold applyStagedRestore
  rw [h]

/-- **An altered backup is refused, unless the alteration hits the magic.** A sealed backup is
restored as it was. A blob that is not the envelope is refused exactly where it still begins with
the magic, but for the envelope of an empty backup cut within its tag; and the database of the next
boot is the present one or the backup's, whatever the files, exactly where the blob begins with the
magic or is the backup itself. -/
theorem backup_integrity_iff {host : BackupHost} {iv plain data : Bytes} {webdav : Webdav}
    {basename : String → String} {name : String} (hkey : host.backupKey ≠ "")
    (hiv : iv.length = 12) (ideal : host.gcm.Ideal iv plain)
    (hne : data ≠ maybeEncryptBackup host iv plain) (hconf : webdav.configured = true)
    (hknown : webdav.known.contains (basename name) = true)
    (hget : webdav.get (basename name) = .ok data) :
    decryptBackup host (maybeEncryptBackup host iv plain) = .ok plain ∧
    ((∃ e, decryptBackup host data = .error e) ↔ isEncryptedBackup data = true ∧
      ¬ ShortTag host.gcm plain (maybeEncryptBackup host iv plain) data) ∧
    ((∀ files : Files, files.restore = none →
        (applyStagedRestore (stageRestore host webdav basename name files).2).db = files.db ∨
        (applyStagedRestore (stageRestore host webdav basename name files).2).db = some plain) ↔
      isEncryptedBackup data = true ∨ data = plain) := by
  refine ⟨decryptBackup_sealed hkey hiv ideal, ?_, ?_⟩
  · by_cases henv : isEncryptedBackup data = true
    · rw [← decryptBackup_ok_iff hkey hiv ideal hne henv]
      cases hd : decryptBackup host data with
      | error e => simp [henv]
      | ok p => simp
    · simp [decryptBackup, henv]
  · simp only [stageRestore_known hconf hknown hget]
    by_cases henv : isEncryptedBackup data = true
    · refine iff_of_true (fun files hnone => ?_) (.inl henv)
      cases hd : decryptBackup host data with
      | error e => exact .inl (by rw [applyStagedRestore_none hnone])
      | ok p =>
        right
        rw [decryptBackup_ok hkey ideal henv hd]
        rfl
    · -- the blob passes as a backup of the time before the key
      have hpass : decryptBackup host data = .ok data := by simp [decryptBackup, henv]
      rw [hpass]
      constructor
      · intro h
        rcases h {} rfl with hdb | hdb
        · exact absurd hdb (by simp [applyStagedRestore])
        · exact .inr (Option.some.inj hdb)
      · rintro (h | rfl) files -
        · exact absurd h henv
        · exact .inr rfl

/-! ## One backup -/

/-- AES-256-GCM under the key that `BACKUP_KEY` `key` gives, at the three bytes `SQL` and the nonce
`0 … 11`; nothing else was sealed. -/
def sqlGcm : Gcm where
  encipher _ _ := ([52, 211, 38],
    [117, 85, 149, 248, 225, 189, 4, 132, 109, 206, 13, 174, 181, 89, 114, 60])
  decipher iv tag ct :=
    if iv = [0, 1, 2, 3, 4, 5, 6, 7, 8, 9, 10, 11] ∧ ct = [52, 211, 38] ∧
        tag <+: [117, 85, 149, 248, 225, 189, 4, 132, 109, 206, 13, 174, 181, 89, 114, 60] ∧
        tag.length ∈ [4, 8, 12, 13, 14, 15, 16] then
      .ok [83, 81, 76]
    else .error "Unsupported state or unable to authenticate data"
  tagLength length := [4, 8, 12, 13, 14, 15, 16].contains length

def sqlHost : BackupHost where
  backupKey := "key"
  gcm := sqlGcm

/-- The nonce and the plaintext of the backup. -/
def sqlNonce : Bytes := [0, 1, 2, 3, 4, 5, 6, 7, 8, 9, 10, 11]

def sql : Bytes := [83, 81, 76]

theorem sql_ideal : sqlHost.gcm.Ideal sqlNonce sql where
  tag := rfl
  ciphertext := rfl
  full := rfl
  opens := by
    intro tag hprefix hlen
    have hlen' : tag.length ∈ [4, 8, 12, 13, 14, 15, 16] := by
      simpa [sqlHost, sqlGcm] using hlen
    exact if_pos ⟨rfl, rfl, hprefix, hlen'⟩
  authentic := by
    intro iv tag ct p hp
    by_cases h : iv = [0, 1, 2, 3, 4, 5, 6, 7, 8, 9, 10, 11] ∧ ct = [52, 211, 38] ∧
        tag <+: [117, 85, 149, 248, 225, 189, 4, 132, 109, 206, 13, 174, 181, 89, 114, 60] ∧
        tag.length ∈ [4, 8, 12, 13, 14, 15, 16]
    · obtain ⟨h₁, h₂, h₃, h₄⟩ := h
      exact ⟨h₁, h₂, h₃, by simpa [sqlHost, sqlGcm] using h₄⟩
    · have hrefused : sqlHost.gcm.decipher iv tag ct =
          .error "Unsupported state or unable to authenticate data" := if_neg h
      rw [hrefused] at hp
      cases hp

/-- The target with one backup, whose download gives the blob. -/
def targetWith (data : Bytes) : Webdav where
  configured := true
  known := ["controller.db"]
  get _ := .ok data

/-- The backup of the three bytes with its last one altered is refused. -/
theorem backup_integrity_last : ∃ e, decryptBackup sqlHost
    ((maybeEncryptBackup sqlHost sqlNonce sql).dropLast ++ [39]) = .error e :=
  (@backup_integrity_iff sqlHost sqlNonce sql
    ((maybeEncryptBackup sqlHost sqlNonce sql).dropLast ++ [39])
    (targetWith ((maybeEncryptBackup sqlHost sqlNonce sql).dropLast ++ [39])) id "controller.db"
    (by decide) rfl sql_ideal (by decide) rfl (by decide) rfl).2.1.mpr
      ⟨by decide, fun h => by simp [ShortTag, sql] at h⟩

/-- With the first byte of its magic altered the envelope passes as a backup of the time before the
key and becomes the database of the next boot. -/
theorem altered_backup_boots :
    decryptBackup sqlHost ((maybeEncryptBackup sqlHost sqlNonce sql).set 0 0) =
        .ok ((maybeEncryptBackup sqlHost sqlNonce sql).set 0 0) ∧
    (applyStagedRestore (stageRestore sqlHost
        (targetWith ((maybeEncryptBackup sqlHost sqlNonce sql).set 0 0)) id "controller.db"
        { db := some sql }).2).db =
      some ((maybeEncryptBackup sqlHost sqlNonce sql).set 0 0) ∧
    (maybeEncryptBackup sqlHost sqlNonce sql).set 0 0 ≠ sql := by
  refine ⟨rfl, rfl, by decide⟩

end MassDeployment
