/-
  **WHICH MIGRATION FILES ARE APPLIED AS WRITTEN.**

  A file may be divided by the lines `-- +migrate Up` and `-- +migrate Down`. The runner knows
  neither sections nor literals nor comments: it cuts the whole file at every semicolon. That agrees
  with the forward part exactly on the PLAIN files.

  Main results:
    - `split_eq_forward_iff`    — one file;
    - `migrations_forward_iff`  — a run without error, and the tables that exist after it;
    - `down_section_applied`    — the repository's own file 000004.
-/
import AiScheduler.Lib.SqlText
import AiScheduler.Xmysql.Migrate
import Mathlib.Data.List.TakeWhile

namespace AiScheduler.Xmysql

open Lib SqlText List

variable {c : Char} {content : List Char}

/-! ## The forward part of a file. -/

def isMarker (direction : String) (line : List Char) : Bool :=
  Cron.trimSpace line = ("-- +migrate " ++ direction).toList

/-- Is the line in a forward section?  `forward` tells whether the one before it is. -/
def isForward (forward : Bool) (line : List Char) : Bool :=
  isMarker "Up" line || (forward && !isMarker "Down" line)

def forwardLines : Bool → List (List Char) → List (List Char)
  | _, [] => []
  | forward, line :: lines =>
    if isForward forward line then line :: forwardLines (isForward forward line) lines
    else forwardLines (isForward forward line) lines

def linesOf (content : List Char) : List (List Char) := content.splitOn '\n'

def forwardPart (content : List Char) : List Char :=
  ['\n'].intercalate (forwardLines true (linesOf content))

def forwardStatements (content : List Char) : List (List Char) :=
  ((fragments Cron.isSpace (forwardPart content)).filter hasCode).map
    (fun fragment => Cron.trimSpace (fragment.map Prod.snd))

/-- A file that the runner's cuts respect. -/
structure Plain (content : List Char) : Prop where
  noDown : ∀ line ∈ linesOf content, isMarker "Down" line = false
  separators : ∀ x ∈ lex Cron.isSpace .code content, x.2 = ';' → x.1 = .sep
  noBareComment : ∀ fragment ∈ fragments Cron.isSpace content, hasCode fragment = false →
    ∀ x ∈ fragment, Cron.isSpace x.2 = true

/-! ## Counting what counts. -/

/-- Neither white space nor a semicolon. -/
def counts (c : Char) : Bool := !Cron.isSpace c && c ≠ ';'

theorem counts_eq_false : counts c = false ↔ Cron.isSpace c = true ∨ c = ';' := by
  unfold counts
  by_cases hs : Cron.isSpace c = true <;> simp [hs]

def weight (text : List Char) : Nat := text.countP counts

theorem weight_dropWhile (text : List Char) :
    weight (text.dropWhile Cron.isSpace) = weight text := by
  induction text with
  | nil => rfl
  | cons c cs ih =>
    have hnot := @counts_eq_false c
    rw [dropWhile_cons]
    grind [weight]

theorem weight_trimSpace (text : List Char) : weight (Cron.trimSpace text) = weight text := by
  have hreverse : ∀ cs : List Char, weight cs.reverse = weight cs := fun cs => countP_reverse
  unfold Cron.trimSpace
  rw [hreverse, weight_dropWhile, hreverse, weight_dropWhile]

theorem mem_dropWhile_of_not {text : List Char} (hc : c ∈ text)
    (hs : Cron.isSpace c = false) : c ∈ text.dropWhile Cron.isSpace := by
  rw [← takeWhile_append_dropWhile (p := Cron.isSpace) (l := text)] at hc
  rcases mem_append.mp hc with h | h
  · rw [mem_takeWhile_imp h] at hs
    cases hs
  · exact h

theorem mem_trimSpace_of_not {text : List Char} (hc : c ∈ text)
    (hs : Cron.isSpace c = false) : c ∈ Cron.trimSpace text := by
  unfold Cron.trimSpace
  rw [mem_reverse]
  exact mem_dropWhile_of_not (mem_reverse.mpr (mem_dropWhile_of_not hc hs)) hs

theorem trimSpace_eq_nil_iff {text : List Char} :
    Cron.trimSpace text = [] ↔ ∀ c ∈ text, Cron.isSpace c = true := by
  constructor
  · intro h c hc
    by_contra hs
    have := mem_trimSpace_of_not hc (by simpa using hs)
    rw [h] at this
    cases this
  · intro h
    have hdrop : text.dropWhile Cron.isSpace = [] := dropWhile_eq_nil_iff.mpr h
    unfold Cron.trimSpace
    rw [hdrop]
    rfl

theorem mem_of_mem_trimSpace {text : List Char} (h : c ∈ Cron.trimSpace text) :
    c ∈ text := by
  unfold Cron.trimSpace at h
  rw [mem_reverse] at h
  have h := (dropWhile_sublist Cron.isSpace).subset h
  exact (dropWhile_sublist Cron.isSpace).subset (mem_reverse.mp h)

theorem split_eq_splitOn (sep : Char)
    (text : List Char) : Cron.split sep text = text.splitOn sep := by
  induction text with
  | nil => rfl
  | cons c cs ih =>
  unfold Cron.split splitOn
  rw [splitOnP_cons_eq_if_modifyHead, ih]
  unfold splitOn
  by_cases hc : c = sep
  · rw [if_pos hc, if_pos (by simpa using hc)]
  rw [if_neg hc, if_neg (by simpa using hc)]
  cases hs : cs.splitOnP (fun x => x == sep) with
  | nil => exact absurd hs (splitOnP_ne_nil _ _)
  | cons p ps => rfl

theorem sum_weight_splitOn {sep : Char} (hsep : counts sep = false) (text : List Char) :
    ((text.splitOn sep).map weight).sum = weight text := by
  apply sum_countP_splitOnP
  intro x _ hx
  have hx : x = sep := by simpa using hx
  rw [hx, hsep]

theorem sum_map_filter {α : Type} {p : α → Bool} {f : α → Nat} (xs : List α) :
    (xs.map f).sum = ((xs.filter p).map f).sum + ((xs.filter (fun x => !p x)).map f).sum := by
  induction xs with
  | nil => rfl
  | cons x xs ih => cases hx : p x <;> simp [hx, ih] <;> omega

/-! ## The runner's cuts. -/

theorem mem_splitSQLStatements {statement : List Char}
    (h : statement ∈ splitSQLStatements content) : ∀ c ∈ statement, c ≠ ';' := by
  intro c hc
  obtain ⟨piece, hpiece, rfl⟩ := mem_map.mp (mem_of_mem_filter h)
  rw [split_eq_splitOn] at hpiece
  have := (mem_of_mem_splitOnP hpiece (mem_of_mem_trimSpace hc)).2
  simpa using this

theorem sum_weight_statements (content : List Char) :
    ((splitSQLStatements content).map weight).sum = weight content := by
  have htrim : ((Cron.split ';' content).map Cron.trimSpace).map weight
      = (Cron.split ';' content).map weight := by
    rw [map_map]
    apply map_congr_left
    intro piece _
    exact weight_trimSpace piece
  -- the pieces left out are empty
  have hempty : ((((Cron.split ';' content).map Cron.trimSpace).filter
      (fun x => !decide (x ≠ []))).map weight).sum = 0 := by
    apply sum_eq_zero
    intro n hn
    obtain ⟨piece, hpiece, rfl⟩ := mem_map.mp hn
    have hnil : piece = [] := by simpa using (mem_filter.mp hpiece).2
    rw [hnil]
    rfl
  have hsum := sum_map_filter (p := fun x => decide (x ≠ [])) (f := weight)
    ((Cron.split ';' content).map Cron.trimSpace)
  rw [htrim, split_eq_splitOn, sum_weight_splitOn (by decide)] at hsum
  rw [split_eq_splitOn] at hempty
  unfold splitSQLStatements
  rw [split_eq_splitOn]
  omega

/-! ## The forward part's statements. -/

def fragmentWeight (fragment : List (Kind × Char)) : Nat := weight (fragment.map Prod.snd)

theorem sum_weight_fragments (text : List Char) :
    ((fragments Cron.isSpace text).map fragmentWeight).sum = weight text := by
  have hcount : ∀ xs : List (Kind × Char),
      weight (xs.map Prod.snd) = xs.countP (fun x => counts x.2) := by
    intro xs
    unfold weight
    rw [countP_map]
    rfl
  have hmap : (fragments Cron.isSpace text).map fragmentWeight
      = (fragments Cron.isSpace text).map (countP (fun x => counts x.2)) :=
    map_congr_left (fun fragment _ => hcount fragment)
  rw [hmap, ← @map_snd_lex Cron.isSpace .code text, hcount, map_snd_lex]
  apply sum_countP_splitOnP
  intro x hx hsep
  rw [lex_sep hx (by simpa using hsep)]
  decide

theorem fragment_of_weight_zero {text : List Char} {fragment : List (Kind × Char)}
    (hfragment : fragment ∈ fragments Cron.isSpace text) (h : fragmentWeight fragment = 0) :
    ∀ x ∈ fragment, x.1 = .gap ∧ Cron.isSpace x.2 = true := by
  apply quiet_of_mem_fragments hfragment
  intro x hx
  have hzero := countP_eq_zero.mp h x.2 (mem_map_of_mem hx)
  exact counts_eq_false.mp (by simpa using hzero)

theorem sum_weight_forward (content : List Char) :
    ((forwardStatements content).map weight).sum
      = (((fragments Cron.isSpace (forwardPart content)).filter hasCode).map
          fragmentWeight).sum := by
  unfold forwardStatements
  rw [map_map]
  congr 1
  apply map_congr_left
  intro fragment _
  exact weight_trimSpace (fragment.map Prod.snd)

/-! ## Sections. -/

theorem weight_intercalate (lines : List (List Char)) :
    weight (['\n'].intercalate lines) = (lines.map weight).sum := by
  induction lines with
  | nil => rfl
  | cons line lines ih =>
  cases lines with
  | nil => simp [weight]
  | cons next lines =>
    rw [intercalate_cons_cons, map_cons, sum_cons, ← ih]
    unfold weight
    rw [countP_append, countP_append]
    rfl

theorem weight_marker_pos {line : List Char}
    (h : isMarker "Down" line = true) : 0 < weight line := by
  rw [← weight_trimSpace, of_decide_eq_true h]
  decide

theorem forwardLines_of_noDown (lines : List (List Char))
    (h : ∀ line ∈ lines, isMarker "Down" line = false) : forwardLines true lines = lines := by
  induction lines with
  | nil => rfl
  | cons line lines ih => grind [forwardLines, isForward]

theorem sum_forwardLines_le (forward : Bool) (lines : List (List Char)) :
    ((forwardLines forward lines).map weight).sum ≤ (lines.map weight).sum := by
  induction lines generalizing forward with
  | nil => exact Nat.le_refl _
  | cons line lines ih => grind [forwardLines]

theorem isMarker_up_of_down {line : List Char} (h : isMarker "Down" line = true) :
    isMarker "Up" line = false := by
  unfold isMarker at h ⊢
  rw [of_decide_eq_true h]
  decide

theorem sum_forwardLines_lt (forward : Bool) (lines : List (List Char))
    (h : ∃ line ∈ lines, isMarker "Down" line = true) :
    ((forwardLines forward lines).map weight).sum < (lines.map weight).sum := by
  induction lines generalizing forward with
  | nil => grind
  | cons line lines ih =>
  by_cases hdown : isMarker "Down" line = true
  · -- the marker itself is dropped
    have hup := isMarker_up_of_down hdown
    have hle := sum_forwardLines_le false lines
    have hpos := weight_marker_pos hdown
    grind [forwardLines, isForward]
  · have hlt := ih (isForward forward line) (by grind)
    grind [forwardLines]

theorem weight_lines {content : List Char} :
    ((linesOf content).map weight).sum = weight content :=
  sum_weight_splitOn (by decide) content

theorem weight_forwardPart_le (content : List Char) :
    weight (forwardPart content) ≤ weight content := by
  unfold forwardPart
  rw [weight_intercalate, ← weight_lines]
  exact sum_forwardLines_le true _

/-- **A FORWARD PART THAT WEIGHS AS MUCH AS THE FILE IS THE FILE.** -/
theorem noDown_of_weight_eq (h : weight content ≤ weight (forwardPart content)) :
    ∀ line ∈ linesOf content, isMarker "Down" line = false := by
  intro line hline
  by_contra hdown
  have hlt := sum_forwardLines_lt true (linesOf content) ⟨line, hline, by simpa using hdown⟩
  unfold forwardPart at h
  rw [weight_intercalate, ← weight_lines] at h
  omega

theorem forwardPart_of_noDown
    (h : ∀ line ∈ linesOf content, isMarker "Down" line = false) :
    forwardPart content = content := by
  unfold forwardPart
  rw [forwardLines_of_noDown _ h]
  exact intercalate_splitOn '\n'

/-! ## When the cuts agree. -/

theorem split_eq_forward (h : Plain content) :
    splitSQLStatements content = forwardStatements content := by
  -- every semicolon separates: the pieces are the fragments
  have hpieces : (fragments Cron.isSpace content).map (map Prod.snd) = content.splitOn ';' := by
    unfold fragments splitOn
    rw [map_splitOnP (f := Prod.snd) (q := fun c => c == ';'), map_snd_lex]
    intro x hx
    by_cases hc : x.2 = ';'
    · simp [hc, h.separators x hx hc]
    · have hkind : x.1 ≠ .sep := fun hsep => hc (lex_sep hx hsep)
      simp [hc, hkind]
  unfold splitSQLStatements forwardStatements
  rw [split_eq_splitOn, ← hpieces, forwardPart_of_noDown h.noDown, map_map, filter_map]
  -- and those left out are white space, on both sides
  have hfilter : (fragments Cron.isSpace content).filter
        ((fun statement => decide (statement ≠ [])) ∘ (Cron.trimSpace ∘ map Prod.snd))
      = (fragments Cron.isSpace content).filter hasCode := by
    apply filter_congr
    intro fragment hfragment
    show decide (Cron.trimSpace (fragment.map Prod.snd) ≠ []) = hasCode fragment
    cases hcode : hasCode fragment with
    | false =>
      have hblank := h.noBareComment fragment hfragment hcode
      rw [decide_eq_false_iff_not, not_not, trimSpace_eq_nil_iff]
      intro c hc
      obtain ⟨x, hx, rfl⟩ := mem_map.mp hc
      exact hblank x hx
    | true =>
    rw [decide_eq_true_iff, Ne, trimSpace_eq_nil_iff]
    intro hblank
    have hquiet := quiet_of_mem_fragments hfragment
      (fun x hx => .inl (hblank x.2 (mem_map_of_mem hx)))
    obtain ⟨x, hx, hk⟩ := any_eq_true.mp hcode
    rw [(hquiet x hx).1] at hk
    exact absurd hk (by decide)
  rw [hfilter]
  rfl

theorem plain_of_split_eq
    (h : splitSQLStatements content = forwardStatements content) : Plain content := by
  have hsum := sum_weight_statements content
  rw [h, sum_weight_forward] at hsum
  have htotal := sum_weight_fragments (forwardPart content)
  rw [sum_map_filter (p := hasCode)] at htotal
  have hle := weight_forwardPart_le content
  have hnoDown : ∀ line ∈ linesOf content, isMarker "Down" line = false :=
    noDown_of_weight_eq (by omega)
  have hpart := forwardPart_of_noDown hnoDown
  rw [hpart] at htotal hsum
  -- the fragments without code weigh nothing, so they are white space
  have hblank : ∀ fragment ∈ fragments Cron.isSpace content, hasCode fragment = false →
      ∀ x ∈ fragment, x.1 = .gap ∧ Cron.isSpace x.2 = true := by
    intro fragment hfragment hcode
    apply fragment_of_weight_zero hfragment
    have hzero : (((fragments Cron.isSpace content).filter (fun x => !hasCode x)).map
        fragmentWeight).sum = 0 := by omega
    apply List.sum_eq_zero_iff_forall_eq_nat.mp hzero
    exact List.mem_map_of_mem (List.mem_filter.mpr ⟨hfragment, by simp [hcode]⟩)
  refine ⟨hnoDown, ?_, fun fragment hf hcode x hx => (hblank fragment hf hcode x hx).2⟩
  intro x hx hc
  by_contra hsep
  obtain ⟨fragment, hfragment, hxf⟩ : ∃ fragment ∈ fragments Cron.isSpace content, x ∈ fragment :=
    exists_mem_splitOnP hx (by simpa using hsep)
  cases hcode : hasCode fragment with
  | false =>
    have hspace := (hblank fragment hfragment hcode x hxf).2
    rw [hc] at hspace
    exact absurd hspace (by decide)
  | true =>
  -- a statement would hold a semicolon, which no piece does
  have hstatement : Cron.trimSpace (fragment.map Prod.snd) ∈ splitSQLStatements content := by
    rw [h]
    unfold forwardStatements
    rw [hpart]
    exact mem_map_of_mem (mem_filter.mpr ⟨hfragment, hcode⟩)
  have hmem : x.2 ∈ Cron.trimSpace (fragment.map Prod.snd) := by
    apply mem_trimSpace_of_not (mem_map_of_mem hxf)
    rw [hc]
    decide
  exact mem_splitSQLStatements hstatement x.2 hmem hc

/-- **THE RUNNER EXECUTES THE FORWARD STATEMENTS OF A FILE EXACTLY WHEN IT IS PLAIN.** -/
theorem split_eq_forward_iff {content : List Char} :
    splitSQLStatements content = forwardStatements content ↔ Plain content :=
  ⟨plain_of_split_eq, split_eq_forward⟩

/-! ## Whole directories. -/

section Run

variable {σ : Type} {server : Server σ}

/-- The text of a file, empty if it cannot be read. -/
def DirEntry.text (e : DirEntry) : List Char := (e.content.toOption.getD "").toList

/-- The files not recorded as applied, by name. -/
def pending (applied : List String) (d : Directory) : List DirEntry :=
  (migrationFiles d).filter (fun e => e.name ∉ applied)

def recorded (server : Server σ) (db : σ) : List String :=
  ((server.exec trackingTable db).toOption.bind
    (fun db => (server.appliedFiles db).toOption)).getD []

def sends (statements : List Char → List (List Char)) (files : List DirEntry) :
    List (String × List Char) :=
  files.flatMap (fun e => (statements e.text).map (fun statement => (e.name, statement)))

theorem sends_cons (statements : List Char → List (List Char)) (file : DirEntry)
    (files : List DirEntry) :
    sends statements (file :: files) = sends statements [file] ++ sends statements files := by
  unfold sends
  rw [flatMap_cons, flatMap_singleton]

/-- **WHAT A RUN SHOULD SEND**: the forward statements of the pending files, by name. -/
def forwardSends (server : Server σ) (d : Directory) (db : σ) : List (String × List Char) :=
  sends forwardStatements (pending (recorded server db) d)

def sentBy (server : Server σ) (dir : String) (d : Directory) (db : σ) :
    List (String × List Char) :=
  (runMigrations server dir (.ok d) db).2.sent

/-- What a statement does to the set of tables. One that drops several tables, or renames one, does
several such things in turn. -/
inductive Effect where
  | creates (table : String)
  | drops (table : String)
  deriving DecidableEq

/-- Is the table there after the effects, if it was (`before`) or was not? -/
def after (t : String) : Prop → List Effect → Prop
  | before, [] => before
  | before, x :: xs => after t (x = .creates t ∨ (before ∧ x ≠ .drops t)) xs

/-- A reading of the tables; transactions and the runner's own records leave them alone. -/
structure Schema (server : Server σ) where
  effects : List Char → List Effect
  hasTable : σ → String → Prop
  begin_ : ∀ {db db'}, server.begin_ db = .ok db' → ∀ t, (hasTable db' t ↔ hasTable db t)
  record : ∀ {name db db'}, server.record name db = .ok db' → ∀ t, (hasTable db' t ↔ hasTable db t)
  commit : ∀ {db db'}, server.commit db = .ok db' → ∀ t, (hasTable db' t ↔ hasTable db t)

/-- These statements, when executed, do to the tables what the schema says. -/
def Schema.Reads (sch : Schema server) (statements : List (String × List Char)) : Prop :=
  ∀ x ∈ statements, ∀ db db', server.exec x.2 db = .ok db' → ∀ t,
    (sch.hasTable db' t ↔ after t (sch.hasTable db t) (sch.effects x.2))

/-- The effects of statements, in order. -/
def Schema.effectsOf (sch : Schema server) (statements : List (String × List Char)) :
    List Effect :=
  statements.flatMap (fun x => sch.effects x.2)

theorem after_append (t : String) (before : Prop) (xs ys : List Effect) :
    after t before (xs ++ ys) = after t (after t before xs) ys := by
  induction xs generalizing before with
  | nil => rfl
  | cons x xs ih => exact ih _

theorem after_of_kept {t : String} (xs : List Effect) {before : Prop} (hb : before)
    (h : Effect.drops t ∉ xs) : after t before xs := by
  induction xs generalizing before with
  | nil => exact hb
  | cons x xs ih =>
    obtain ⟨hx, hxs⟩ := not_or.mp (mt mem_cons.mpr h)
    exact ih (.inr ⟨hb, Ne.symm hx⟩) hxs

/-- The session went on from `s`: `sent` was sent, and the tables are what that makes of them. -/
structure Continues (server : Server σ) (s : Session σ) (sent : List (String × List Char))
    (s' : Session σ) : Prop where
  log : s'.sent = s.sent ++ sent
  tables : ∀ sch : Schema server, sch.Reads sent → ∀ t,
    (sch.hasTable s'.db t ↔ after t (sch.hasTable s.db t) (sch.effectsOf sent))

theorem Continues.nil (s : Session σ) : Continues server s [] s where
  log := (append_nil _).symm
  tables := fun _ _ _ => Iff.rfl

theorem Continues.trans {s₁ s₂ s₃ : Session σ} {xs ys : List (String × List Char)}
    (h₁ : Continues server s₁ xs s₂) (h₂ : Continues server s₂ ys s₃) :
    Continues server s₁ (xs ++ ys) s₃ where
  log := by
    rw [h₂.log, h₁.log, append_assoc]
  tables := by
    intro sch hreads t
    have hfirst := h₁.tables sch (fun x hx => hreads x (mem_append_left _ hx)) t
    have hsecond := h₂.tables sch (fun x hx => hreads x (mem_append_right _ hx)) t
    have heffects : sch.effectsOf (xs ++ ys) = sch.effectsOf xs ++ sch.effectsOf ys :=
      flatMap_append
    rw [hsecond, propext hfirst, heffects, after_append]

/-! ## A run without error. -/

theorem execStatements_of_ok (name : String) (statements : List (List Char))
    {s s' : Session σ} (h : execStatements server name statements s = (.ok (), s')) :
    Continues server s (statements.map (fun x => (name, x))) s' := by
  induction statements generalizing s with
  | nil =>
    cases h
    exact .nil _
  | cons x xs ih =>
  unfold execStatements at h
  cases hdb : server.exec x s.db with
  | error e =>
    simp only [hdb] at h
    cases h
  | ok db =>
  simp only [hdb] at h
  have hfirst : Continues server s [(name, x)] { db := db, sent := s.sent ++ [(name, x)] } := by
    refine ⟨rfl, fun sch hreads t => ?_⟩
    rw [Schema.effectsOf, flatMap_singleton]
    exact hreads _ (.head _) s.db db hdb t
  exact hfirst.trans (ih h)

theorem applyFile_of_ok {dir : String} {file : DirEntry} {s s' : Session σ}
    (h : applyFile server dir file s = (.ok (), s')) :
    Continues server s (sends splitSQLStatements [file]) s' := by
  unfold applyFile at h
  cases hcontent : file.content with
  | error e => simp [hcontent] at h
  | ok content =>
  cases h₁ : server.begin_ s.db with
  | error e => simp [hcontent, h₁] at h
  | ok db₁ =>
  cases h₂ : execStatements server file.name (splitSQLStatements content.toList)
      { s with db := db₁ } with
  | mk result s₂ =>
  cases result with
  | error e => simp [hcontent, h₁, h₂] at h
  | ok =>
  cases h₃ : server.record file.name s₂.db with
  | error e => simp [hcontent, h₁, h₂, h₃] at h
  | ok db₃ =>
  cases h₄ : server.commit db₃ with
  | error e => simp [hcontent, h₁, h₂, h₃, h₄] at h
  | ok db₄ =>
  simp only [hcontent, h₁, h₂, h₃, h₄, Prod.mk.injEq, true_and] at h
  have hsends : sends splitSQLStatements [file]
      = (splitSQLStatements content.toList).map (fun x => (file.name, x)) := by
    unfold sends DirEntry.text
    rw [flatMap_singleton, hcontent]
    rfl
  have hsent := execStatements_of_ok file.name _ h₂
  rw [hsends, ← h]
  refine ⟨hsent.log, ?_⟩
  -- opening, recording and committing leave the tables alone
  intro sch hreads t
  rw [sch.commit h₄ t, sch.record h₃ t, hsent.tables sch hreads t, propext (sch.begin_ h₁ t)]

theorem applyFiles_of_ok {dir : String} {applied : List String} (files : List DirEntry)
    {s s' : Session σ} (h : applyFiles server dir applied files s = (.ok (), s')) :
    Continues server s
      (sends splitSQLStatements (files.filter (fun e => e.name ∉ applied))) s' := by
  induction files generalizing s with
  | nil =>
    cases h
    exact .nil _
  | cons file files ih =>
  unfold applyFiles at h
  by_cases hname : file.name ∈ applied
  · rw [if_pos hname] at h
    rw [filter_cons_of_neg (by simpa using hname)]
    exact ih h
  rw [if_neg hname] at h
  cases h₁ : applyFile server dir file s with
  | mk result s₁ =>
  cases result with
  | error e => simp [h₁] at h
  | ok =>
  simp only [h₁] at h
  rw [filter_cons_of_pos (by simpa using hname), sends_cons]
  exact (applyFile_of_ok h₁).trans (ih h)

/-- **RUN.** A run without error sends the pieces of every pending file. -/
theorem runMigrations_of_ok {dir : String} {d : Directory} {db : σ} {s' : Session σ}
    (h : runMigrations server dir (.ok d) db = (.ok (), s')) :
    ∃ db₁, Continues server { db := db₁ }
      (sends splitSQLStatements (pending (recorded server db) d)) s' := by
  unfold runMigrations at h
  cases h₁ : server.exec trackingTable db with
  | error e => simp [h₁] at h
  | ok db₁ =>
  simp only [h₁] at h
  have hrecorded : recorded server db = (server.appliedFiles db₁).toOption.getD [] := by
    unfold recorded
    rw [h₁]
    rfl
  rw [hrecorded]
  exact ⟨db₁, applyFiles_of_ok _ h⟩

theorem filter_sends (statements : List Char → List (List Char)) :
    ∀ {files : List DirEntry}, (files.map DirEntry.name).Nodup → ∀ e ∈ files,
      (sends statements files).filter (fun x => x.1 = e.name)
        = (statements e.text).map (fun statement => (e.name, statement)) := by
  intro files
  induction files with
  | nil =>
    intro _ e he
    cases he
  | cons file files ih =>
  intro hnames e he
  rw [map_cons, nodup_cons] at hnames
  unfold sends at ih ⊢
  rw [flatMap_cons, filter_append, filter_map]
  rcases mem_cons.mp he with rfl | he
  · -- no other file has this name
    have hothers : ∀ x ∈ files.flatMap (fun e => (statements e.text).map (fun y => (e.name, y))),
        ¬ decide (x.1 = e.name) = true := by
      grind
    rw [filter_eq_nil_iff.mpr hothers, append_nil]
    simp [Function.comp_def]
  · have hne : file.name ≠ e.name := by grind
    simpa [Function.comp_def, hne] using ih hnames.2 e he

theorem sends_eq_iff {f g : List Char → List (List Char)} {files : List DirEntry}
    (hnames : (files.map DirEntry.name).Nodup) :
    sends f files = sends g files ↔ ∀ e ∈ files, f e.text = g e.text := by
  constructor
  · intro h e he
    have hfile := filter_sends f hnames e he
    rw [h, filter_sends g hnames e he] at hfile
    have := congrArg (map Prod.snd) hfile
    simpa [map_map, Function.comp_def] using this.symm
  · intro h
    unfold sends
    apply flatMap_congr
    intro e he
    rw [h e he]

theorem nodup_pending (applied : List String) (d : Directory) :
    ((pending applied d).map DirEntry.name).Nodup := by
  have hfiles : ((migrationFiles d).map DirEntry.name).Nodup :=
    ((perm_insertionSort _ _).map DirEntry.name).nodup_iff.mpr
      (d.nodup.sublist (filter_sublist.map _))
  exact hfiles.sublist (filter_sublist.map _)

/-- The statements create the table and do not drop it later. -/
def Keeps (sch : Schema server) (statements : List (String × List Char)) (t : String) : Prop :=
  ∃ earlier later, sch.effectsOf statements = earlier ++ .creates t :: later
    ∧ Effect.drops t ∉ later

/-- **A RUN EXECUTES THE FORWARD PARTS EXACTLY WHEN THE PENDING FILES ARE PLAIN**; then every table
they create and do not drop later exists. -/
theorem migrations_forward_iff (server : Server σ) (dir : String) (d : Directory) (db : σ)
    (hok : (runMigrations server dir (.ok d) db).1 = .ok ()) :
    (sentBy server dir d db = forwardSends server d db
        ↔ ∀ e ∈ pending (recorded server db) d, Plain e.text)
      ∧ ((∀ e ∈ pending (recorded server db) d, Plain e.text) →
          ∀ sch : Schema server, sch.Reads (forwardSends server d db) →
            ∀ t, Keeps sch (forwardSends server d db) t →
              sch.hasTable (runMigrations server dir (.ok d) db).2.db t) := by
  obtain ⟨db₁, hsent⟩ := runMigrations_of_ok (Prod.ext hok rfl)
  have hsends : sentBy server dir d db
      = sends splitSQLStatements (pending (recorded server db) d) := hsent.log
  have hiff : sentBy server dir d db = forwardSends server d db
      ↔ ∀ e ∈ pending (recorded server db) d, Plain e.text := by
    unfold forwardSends
    rw [hsends, sends_eq_iff (nodup_pending _ d)]
    constructor
    · exact fun h e he => (split_eq_forward_iff).mp (h e he)
    · exact fun h e he => (split_eq_forward_iff).mpr (h e he)
  refine ⟨hiff, ?_⟩
  rintro hplain sch hreads t ⟨earlier, later, hsplit, hkept⟩
  rw [← hsends, hiff.mpr hplain] at hsent
  rw [hsent.tables sch hreads t, hsplit, after_append]
  exact after_of_kept later (.inl rfl) hkept

end Run

/-- What the statements of a migration do to one table; the first line is a comment. -/
def dependencyEffects (x : List Char) : List Effect :=
  let statement := (x.dropWhile (fun c => c ≠ '\n')).tail
  if "CREATE TABLE".toList.isPrefixOf statement then [.creates "task_dependency"]
  else if "DROP TABLE".toList.isPrefixOf statement then [.drops "task_dependency"]
  else []

def Effect.apply (tables : List String) : Effect → List String
  | .creates t => t :: tables
  | .drops t => tables.filter (fun t' => t' ≠ t)

/-- A database that holds the names of its tables. -/
def dependencyServer : Server (List String) where
  exec x tables := .ok ((dependencyEffects x).foldl Effect.apply tables)
  appliedFiles _ := .ok []
  begin_ tables := .ok tables
  record _ tables := .ok tables
  commit tables := .ok tables
  rollback tables := tables

/-- The tables of that database are the names it holds. -/
def dependencySchema : Schema dependencyServer where
  effects := dependencyEffects
  hasTable tables t := t ∈ tables
  begin_ h t := by
    cases h
    exact Iff.rfl
  record h t := by
    cases h
    exact Iff.rfl
  commit h t := by
    cases h
    exact Iff.rfl

theorem mem_apply {tables : List String} {t : String} {x : Effect} :
    t ∈ x.apply tables ↔ x = .creates t ∨ (t ∈ tables ∧ x ≠ .drops t) := by
  cases x with
  | creates t' => simp [Effect.apply, @eq_comm _ t t']
  | drops t' => simp [Effect.apply, @eq_comm _ t t']

theorem dependencySchema_reads (statements : List (String × List Char)) :
    dependencySchema.Reads statements := by
  intro x _ tables tables' h t
  cases h
  show t ∈ (dependencyEffects x.2).foldl Effect.apply tables ↔ after t (t ∈ tables) _
  show _ ↔ after t (t ∈ tables) (dependencyEffects x.2)
  generalize dependencyEffects x.2 = effects
  induction effects generalizing tables with
  | nil => exact Iff.rfl
  | cons x xs ih =>
    show t ∈ xs.foldl Effect.apply (x.apply tables) ↔ after t (x = .creates t ∨ _) xs
    rw [ih, propext mem_apply]

/-- A directory of one file. -/
def oneFile (content : String) : Directory :=
  ⟨[{ name := "000004_add_task_dependency.sql", content := .ok content }], List.nodup_singleton _⟩

def plainMigration : String :=
  "-- edges
CREATE TABLE IF NOT EXISTS task_dependency (id BIGINT DEFAULT '0');
"

/-- Such a file is applied as written, and its table is there. -/
theorem migrations_forward_plain :
    sentBy dependencyServer "migrations" (oneFile plainMigration) []
        = forwardSends dependencyServer (oneFile plainMigration) []
      ∧ "task_dependency"
        ∈ (runMigrations dependencyServer "migrations" (.ok (oneFile plainMigration)) []).2.db := by
  obtain ⟨hiff, htables⟩ := migrations_forward_iff dependencyServer "migrations"
    (oneFile plainMigration) [] (by decide +kernel)
  have hplain : ∀ e ∈ pending (recorded dependencyServer []) (oneFile plainMigration),
      Plain e.text := by
    intro e he
    have hrow : e ∈ (oneFile plainMigration).rows :=
      List.mem_of_mem_filter ((List.perm_insertionSort _ _).mem_iff.mp (List.mem_of_mem_filter he))
    rw [List.mem_singleton.mp hrow]
    exact ⟨by decide +kernel, by decide +kernel, by decide +kernel⟩
  refine ⟨hiff.mpr hplain, ?_⟩
  exact htables hplain dependencySchema (dependencySchema_reads _) _
    ⟨[], [], by decide +kernel, by simp⟩

/-- The file `000004_add_task_dependency.sql`, but for its columns. -/
def dependencyMigration : String :=
  "-- +migrate Up
CREATE TABLE IF NOT EXISTS task_dependency (id BIGINT);

-- +migrate Down
DROP TABLE IF EXISTS task_dependency;
"

/-- **THE DOWN SECTION IS APPLIED TOO**: the table the forward part creates does not exist
afterwards. -/
theorem down_section_applied :
    dependencySchema.effectsOf (forwardSends dependencyServer (oneFile dependencyMigration) [])
        = [.creates "task_dependency"]
      ∧ dependencySchema.effectsOf
          (sentBy dependencyServer "migrations" (oneFile dependencyMigration) [])
        = [.creates "task_dependency", .drops "task_dependency"]
      ∧ (runMigrations dependencyServer "migrations" (.ok (oneFile dependencyMigration)) []).1
        = .ok ()
      ∧ (runMigrations dependencyServer "migrations" (.ok (oneFile dependencyMigration)) []).2.db
        = [] := by
  decide +kernel

end AiScheduler.Xmysql
