/-
  **MIGRATIONS RUN AGAIN AND AGAIN**, each run ending anywhere.

  The files recorded are always the FIRST ones by name, so a run takes up where the last one
  stopped.  If the query for the recorded files fails, or ends early, a recorded file is executed a
  second time; the tracking table's primary key then stops the run.
-/
import AiScheduler.Xmysql.Migrate
import Mathlib.Data.List.Sort

namespace AiScheduler.Xmysql

open List

variable {σ : Type} {server : Server σ} {names : σ → List String}

/-- The tracking table, by the names in it.  A name goes in once: with its commit, or at once when a
statement before it ended the transaction. Nothing else changes them; the query may miss some. -/
structure Server.Tracks (server : Server σ) (names : σ → List String) : Prop where
  exec : ∀ x db db', server.exec x db = .ok db' → names db' = names db
  begin_ : ∀ db db', server.begin_ db = .ok db' → names db' = names db
  rollback : ∀ db, names (server.rollback db) = names db
  record : ∀ f db db', server.record f db = .ok db' →
    f ∉ names db ∧ (names db' = names db ∨ names db' = names db ++ [f])
  commit : ∀ f db db₁ db₂, server.record f db = .ok db₁ → server.commit db₁ = .ok db₂ →
    names db₂ = names db ++ [f]
  applied : ∀ db l, server.appliedFiles db = .ok l → l ⊆ names db

def fileNames (d : Directory) : List String := (migrationFiles d).map DirEntry.name

theorem nodup_fileNames (d : Directory) : (fileNames d).Nodup :=
  ((perm_insertionSort _ _).map DirEntry.name).nodup_iff.mpr
    (d.nodup.sublist (filter_sublist.map _))

/-- What a run, or the rest of one, makes of the recorded files, of those in `all`: it only adds,
in order, and a success has added all.  A recorded file is executed again only if it is not in
`applied`, and then the run fails. -/
structure Resumed (names : σ → List String) (applied all : List String) (s : Session σ)
    (r : Except Err Unit × Session σ) : Prop where
  kept : names s.db <+: names r.2.db
  first : names r.2.db <+: all
  complete : r.1 = .ok () → names r.2.db = all
  once : r.1 = .ok () → ∀ x ∈ r.2.sent, x ∈ s.sent ∨ x.1 ∉ names s.db
  skipped : ∀ x ∈ r.2.sent, x ∈ s.sent ∨ x.1 ∉ applied

/-- A part of a run, and the rest from where it ended. -/
theorem Resumed.after {applied all : List String} {s s' : Session σ}
    {r : Except Err Unit × Session σ} (h : Resumed names applied all s' r)
    (hgrown : names s.db <+: names s'.db)
    (honce : ∀ x ∈ s'.sent, x ∈ s.sent ∨ x.1 ∉ names s.db)
    (hskip : ∀ x ∈ s'.sent, x ∈ s.sent ∨ x.1 ∉ applied) : Resumed names applied all s r := by
  refine ⟨hgrown.trans h.kept, h.first, h.complete, ?_, ?_⟩
  · intro hok x hx
    rcases h.once hok x hx with hx | hx
    · exact honce x hx
    · exact .inr (fun hin => hx (hgrown.subset hin))
  · intro x hx
    exact (h.skipped x hx).elim (hskip x) .inr

/-- What a run knows of the recorded files. -/
def answered (server : Server σ) (db : σ) : List String :=
  ((server.exec trackingTable db).bind server.appliedFiles).toOption.getD []

/-- Between the first names and those with the next ones: the next is missing, or it is there. -/
theorem stopped_or_past {before recorded later : List String} {f : String}
    (h₁ : before <+: recorded) (h₂ : recorded <+: before ++ f :: later) :
    recorded = before ∨ before ++ [f] <+: recorded := by
  obtain ⟨more, rfl⟩ := h₁
  rw [prefix_append_right_inj] at h₂
  cases more with
  | nil => exact .inl (append_nil _)
  | cons g more =>
    rw [(cons_prefix_cons.mp h₂).1]
    exact .inr ⟨more, by simp⟩

section Run

variable (ht : server.Tracks names)

include ht

theorem execStatements_keeps (name : String) : ∀ (statements : List (List Char)) (s : Session σ),
    names (execStatements server name statements s).2.db = names s.db
      ∧ ∀ x ∈ (execStatements server name statements s).2.sent, x ∈ s.sent ∨ x.1 = name := by
  intro statements
  induction statements with
  | nil => exact fun s => ⟨rfl, fun x hx => .inl hx⟩
  | cons statement statements ih =>
  intro s
  have hsent : ∀ x ∈ s.sent ++ [(name, statement)], x ∈ s.sent ∨ x.1 = name := by
    intro x hx
    rcases mem_append.mp hx with hx | hx
    · exact .inl hx
    · rw [mem_singleton.mp hx]
      exact .inr rfl
  unfold execStatements
  cases hexec : server.exec statement s.db with
  | error e => exact ⟨ht.rollback _, hsent⟩
  | ok db =>
    obtain ⟨hnames, hall⟩ := ih { db := db, sent := s.sent ++ [(name, statement)] }
    refine ⟨hnames.trans (ht.exec _ _ _ hexec), ?_⟩
    intro x hx
    exact (hall x hx).elim (hsent x) .inr

/-- A pass that succeeds records its file, which was not recorded before; one that fails records
nothing else. -/
theorem applyFile_cases (dir : String) (file : DirEntry) (s : Session σ) :
    (∀ x ∈ (applyFile server dir file s).2.sent, x ∈ s.sent ∨ x.1 = file.name)
      ∧ ((applyFile server dir file s).1 ≠ .ok ()
            ∧ names (applyFile server dir file s).2.db = names s.db
          ∨ file.name ∉ names s.db
            ∧ names (applyFile server dir file s).2.db = names s.db ++ [file.name]) := by
  unfold applyFile
  cases file.content with
  | error e => exact ⟨fun x hx => .inl hx, .inl ⟨nofun, rfl⟩⟩
  | ok content =>
  cases hbegin : server.begin_ s.db with
  | error e => exact ⟨fun x hx => .inl hx, .inl ⟨nofun, rfl⟩⟩
  | ok db =>
  have hkeeps := execStatements_keeps ht file.name (splitSQLStatements content.toList)
    { s with db := db }
  dsimp only
  generalize execStatements server file.name (splitSQLStatements content.toList)
    { s with db := db } = out at hkeeps ⊢
  obtain ⟨res, s'⟩ := out
  obtain ⟨hnames, hsent⟩ := hkeeps
  have hnames' : names s'.db = names s.db := hnames.trans (ht.begin_ _ _ hbegin)
  cases res with
  | error e => exact ⟨hsent, .inl ⟨nofun, hnames'⟩⟩
  | ok u =>
  dsimp only
  rw [← hnames']
  cases hrecord : server.record file.name s'.db with
  | error e => exact ⟨hsent, .inl ⟨nofun, ht.rollback _⟩⟩
  | ok db₁ =>
  obtain ⟨hnew, hrec⟩ := ht.record _ _ _ hrecord
  dsimp only
  cases hcommit : server.commit db₁ with
  | error e =>
    refine ⟨hsent, ?_⟩
    rcases hrec with hsame | hput
    · exact .inl ⟨nofun, hsame⟩
    · exact .inr ⟨hnew, hput⟩
  | ok db₂ => exact ⟨hsent, .inr ⟨hnew, ht.commit _ _ _ _ hrecord hcommit⟩⟩

/-- The loop, from where the files `before` are behind it. -/
theorem applyFiles_cases (dir : String) (applied : List String) :
    ∀ (files : List DirEntry) (s : Session σ) (before : List String),
      (before ++ files.map DirEntry.name).Nodup → before <+: names s.db →
      names s.db <+: before ++ files.map DirEntry.name → applied ⊆ names s.db →
      Resumed names applied (before ++ files.map DirEntry.name) s
        (applyFiles server dir applied files s) := by
  intro files
  induction files with
  | nil =>
    intro s before _ h₁ h₂ _
    have hall : names s.db = before ++ [] := h₂.eq_of_length_le (by simpa using h₁.length_le)
    exact ⟨prefix_rfl, h₂, fun _ => hall, fun _ x hx => .inl hx, fun x hx => .inl hx⟩
  | cons file files ih =>
  intro s before hnodup h₁ h₂ happlied
  have hsplit : before ++ (file :: files).map DirEntry.name
      = (before ++ [file.name]) ++ files.map DirEntry.name := by simp
  have hpast := stopped_or_past h₁ h₂
  have hnot : file.name ∉ before := fun hf => (nodup_append.mp hnodup).2.2 _ hf _ (by simp) rfl
  unfold applyFiles
  rw [hsplit] at hnodup h₂ ⊢
  by_cases hin : file.name ∈ applied
  · -- recorded, so the names go on past it
    rw [if_pos hin]
    rcases hpast with hstop | hpast
    · exact absurd (hstop ▸ happlied hin) hnot
    · exact ih s _ hnodup hpast h₂ happlied
  rw [if_neg hin]
  have hpass := applyFile_cases ht dir file s
  generalize applyFile server dir file s = out at hpass ⊢
  obtain ⟨res, s'⟩ := out
  obtain ⟨hsent, hpass⟩ := hpass
  have hskip : ∀ x ∈ s'.sent, x ∈ s.sent ∨ x.1 ∉ applied := by
    intro x hx
    rcases hsent x hx with hx | hx
    · exact .inl hx
    · exact .inr (hx ▸ hin)
  rcases hpass with ⟨hfail, hsame⟩ | ⟨hnew, hput⟩
  · cases res with
    | error e => exact ⟨hsame ▸ prefix_rfl, hsame ▸ h₂, nofun, nofun, hskip⟩
    | ok u => exact absurd rfl hfail
  · -- the file is new, so the recorded ones are exactly those behind the loop
    have hstop : names s.db = before :=
      hpast.resolve_right (fun h => hnew (h.subset (by simp)))
    rw [hstop] at hput hnew
    cases res with
    | error e =>
      exact ⟨hput ▸ hstop ▸ prefix_append _ _, hput ▸ prefix_append _ _, nofun, nofun, hskip⟩
    | ok u =>
    have hgrown : names s.db <+: names s'.db := hput ▸ hstop ▸ prefix_append _ _
    have hrest := ih s' (before ++ [file.name]) hnodup (hput ▸ prefix_rfl)
      (hput ▸ prefix_append _ _) (fun f hf => hgrown.subset (happlied hf))
    refine hrest.after hgrown ?_ hskip
    intro x hx
    rcases hsent x hx with hx | hx
    · exact .inl hx
    · rw [hx, hstop]
      exact .inr hnew

theorem runMigrations_cases (dir : String) (d : Directory) {db : σ} (h : names db <+: fileNames d) :
    Resumed names (answered server db) (fileNames d) { db := db }
      (runMigrations server dir (.ok d) db) := by
  unfold runMigrations answered
  cases hexec : server.exec trackingTable db with
  | error e => exact ⟨prefix_rfl, h, nofun, nofun, nofun⟩
  | ok db₁ =>
  have hdb := ht.exec _ _ _ hexec
  have happlied : (server.appliedFiles db₁).toOption.getD [] ⊆ names db₁ := by
    cases hq : server.appliedFiles db₁ with
    | error e => exact nil_subset _
    | ok l => exact ht.applied _ _ hq
  have hrun := applyFiles_cases ht dir _ (migrationFiles d) { db := db₁ } []
    (nodup_fileNames d) nil_prefix (hdb ▸ h) happlied
  exact ⟨hdb ▸ hrun.kept, hrun.first, hrun.complete, hdb ▸ hrun.once, hrun.skipped⟩

end Run

/-! ## Deployments. -/

/-- The databases that any number of runs can leave, with the files of the last directory listed.
Each run meets a server that fails as it likes, and a directory that only got later files. -/
inductive Deployed (names : σ → List String) : List String → σ → Prop
  | fresh {db : σ} : names db = [] → Deployed names [] db
  | unlisted {files : List String} {db : σ} (server : Server σ) (dir : String) (e : Err) :
      Deployed names files db → server.Tracks names →
      Deployed names files (runMigrations server dir (.error e) db).2.db
  | run {files : List String} {db : σ} (server : Server σ) (dir : String) (d : Directory) :
      Deployed names files db → server.Tracks names → files <+: fileNames d →
      Deployed names (fileNames d) (runMigrations server dir (.ok d) db).2.db

theorem Deployed.first {files : List String} {db : σ} (h : Deployed names files db) :
    names db <+: files := by
  induction h with
  | fresh h => exact h ▸ nil_prefix
  | unlisted server dir e _ ht ih =>
    unfold runMigrations
    split
    · exact ih
    · next hexec => exact ht.exec _ _ _ hexec ▸ ih
  | run server dir d _ ht hfiles ih => exact (runMigrations_cases ht dir d (ih.trans hfiles)).first

/-- **Migrations take up where they stopped**, after any runs. -/
theorem migrations_resume {files : List String} {db : σ} (h : Deployed names files db)
    (ht : server.Tracks names) (dir : String) (d : Directory) (hfiles : files <+: fileNames d) :
    Resumed names (answered server db) (fileNames d) { db := db }
      (runMigrations server dir (.ok d) db) :=
  runMigrations_cases ht dir d (h.first.trans hfiles)

/-- A server that keeps the names only, and answers the query with those that `seen` shows. -/
def nameServer (seen : List String → List String) : Server (List String) where
  exec _ db := .ok db
  appliedFiles db := .ok (seen db)
  begin_ db := .ok db
  record f db := if f ∈ db then .error (.text "Duplicate entry") else .ok (db ++ [f])
  commit db := .ok db
  rollback db := db

theorem nameServer_tracks {seen : List String → List String} (h : ∀ db, seen db ⊆ db) :
    (nameServer seen).Tracks id := by
  have hrecord : ∀ f db db', (nameServer seen).record f db = .ok db' →
      f ∉ db ∧ db ++ [f] = db' := by
    intro f db db' h
    by_cases hf : f ∈ db
    · exact nomatch (if_pos hf).symm.trans h
    · exact ⟨hf, Except.ok.inj ((if_neg hf).symm.trans h)⟩
  constructor
  case exec => exact fun _ _ _ h => (Except.ok.inj h).symm
  case begin_ => exact fun _ _ h => (Except.ok.inj h).symm
  case rollback => exact fun _ => rfl
  case record => exact fun f db db' h => ⟨(hrecord f db db' h).1, .inr (hrecord f db db' h).2.symm⟩
  case commit => exact fun f db db₁ _ h₁ h₂ => Except.ok.inj h₂ ▸ (hrecord f db db₁ h₁).2.symm
  case applied => exact fun db l hl => Except.ok.inj hl ▸ h db

def initMigration : Directory :=
  ⟨[{ name := "000001_init.sql", content := .ok "SELECT 1;" }], nodup_singleton _⟩

def afterInit : List String := (runMigrations (nameServer id) "." (.ok initMigration) []).2.db

/-- A second run that does not see the first one's file executes it again. -/
theorem migrations_resume_unseen :
    Resumed id [] (fileNames initMigration) { db := afterInit }
        (runMigrations (nameServer (fun _ => [])) "." (.ok initMigration) afterInit)
      ∧ (runMigrations (nameServer (fun _ => [])) "." (.ok initMigration) afterInit).2.sent ≠ [] :=
  ⟨migrations_resume
      (.run _ _ _ (.fresh rfl) (nameServer_tracks (fun _ => Subset.refl _)) nil_prefix)
      (nameServer_tracks (fun _ => nil_subset _)) _ _ prefix_rfl,
    by decide +kernel⟩

end AiScheduler.Xmysql
