/-
Daybook.Proofs.LineGrammar — the line of a workday, described without a machine.

`Grammar.entry` reads an entry off the characters of a line: the trimmed line
is cut at its first spaces into a category column, a duration column and the
rest, and the rest begins with a task or is all comment. Main statement: on a
day that is no holiday the reader yields exactly this, problems included.

§1 the grammar, §2 what the machine yields from each of its phases on, §3 the
columns of a line, §4 from effects to the entry, §5 the main statement.
-/
import Daybook.Line.Reader
import Daybook.Proofs.Tokens
import Daybook.Proofs.Trimming
import Mathlib.Data.List.TakeWhile

namespace Daybook.Line

/-! ## §1 The grammar -/

namespace Grammar

/-- The first column of a line: all up to its first space. -/
def column (cs : List Char) : List Char := cs.takeWhile (· ≠ ' ')

/-- What stands behind the first column and the spaces after it. -/
def behind (cs : List Char) : List Char := (cs.dropWhile (· ≠ ' ')).dropWhile (· = ' ')

/-- The one word that may be a task: what stands before the first space or dot. -/
def candidate (rest : List Char) : List Char := rest.takeWhile fun c => c != ' ' && c != '.'

/-- Whether the candidate of `rest` is a task. -/
def BeginsWithTask (isTask : String → Bool) (rest : List Char) : Prop :=
  candidate rest ≠ [] ∧ ¬ Text.allDigits (candidate rest) ∧
    isTask (String.ofList (candidate rest))

instance (isTask : String → Bool) (rest : List Char) : Decidable (BeginsWithTask isTask rest) :=
  inferInstanceAs (Decidable (_ ∧ _))

/-- The entry that a category, a duration and the rest of the line make up. -/
def entryOf (isTask : String → Bool) (category : List Char) (time : WorkTime)
    (rest : List Char) : Entry :=
  if BeginsWithTask isTask rest then
    { category := String.ofList category, hours := time.hours, minutes := time.minutes
      task := some (String.ofList (candidate rest))
      comment := String.ofList (Text.trim (rest.drop (candidate rest).length)) }
  else
    { category := String.ofList category, hours := time.hours, minutes := time.minutes
      task := none
      comment := String.ofList (Text.trim rest) }

/-- The entry of a line, read off its characters. -/
def entry (c : Classifier) (line : List Char) : Except Problem Entry :=
  let text := Text.trim line
  if text = [] then throw .emptyLine
  else if !c.isCategory (String.ofList (column text)) then throw .invalidCategory
  else if ' ' ∉ text then throw .invalidTime
  else
    match WorkTime.ofTokens? (Token.tokenize (String.ofList (column (behind text)))) with
    | none => throw .invalidTime
    | some time => pure (entryOf c.isTask (column text) time (behind (behind text)))

end Grammar

/-! ## §2 The machine from a phase on -/

/-- The effects of the tokens of a line, its end included, from a phase on. -/
def settle (c : Classifier) (phase : Phase) (tokens : List Token) :
    Except Problem (List Effect) := do
  let (last, effects) ← run c phase tokens
  let closing ← finish c last
  pure (effects ++ closing.toList)

theorem settle_nil (c : Classifier) (phase : Phase) :
    settle c phase [] = Option.toList <$> finish c phase := by
  simp [settle, run]

theorem settle_cons (c : Classifier) (phase : Phase) (t : Token) (ts : List Token) :
    settle c phase (t :: ts) = (do
      let (next, effect) ← step c phase t
      let effects ← settle c next ts
      pure (effect.toList ++ effects)) := by
  simp [settle, run]

/-- Reading a line folds the effects of its tokens into a draft. -/
theorem readEntry_eq_settle (c : Classifier) (line : String) :
    readEntry c line =
      (fun es => (es.foldl Draft.apply {}).toEntry) <$>
        settle c .initial (Token.tokenize line) := by
  simp [readEntry, settle]

/-! The phase `category`: the tokens up to the first space name the category. -/

/-- Tokens without a space gather in the category. -/
theorem settle_category_append (c : Classifier) (acc ts us : List Token) (hts : .space ∉ ts) :
    settle c (.category acc) (ts ++ us) = settle c (.category (acc ++ ts)) us := by
  induction ts generalizing acc with
  | nil => simp
  | cons t ts ih =>
    obtain ⟨ht, hts⟩ : .space ≠ t ∧ .space ∉ ts := by simpa using hts
    have hstep : step c (.category acc) t = pure (.category (acc ++ [t]), none) := by
      cases t with
      | space => exact absurd rfl ht
      | _ => rfl
    rw [List.cons_append, settle_cons, hstep]
    simp [ih _ hts]

theorem acceptCategory_scan (c : Classifier) {cs : List Char} (hne : cs ≠ []) :
    acceptCategory c (Token.scan cs) =
      if c.isCategory (String.ofList cs) then pure (String.ofList cs)
      else throw .invalidCategory := by
  have := Token.scan_ne_nil hne
  simp [acceptCategory, Token.join_scan, this]

/-- A line that is a category column alone. -/
theorem settle_category_only (c : Classifier) {cs : List Char} (hne : cs ≠ []) (hcs : ' ' ∉ cs) :
    settle c .initial (Token.scan cs) =
      if c.isCategory (String.ofList cs) then throw .invalidTime
      else throw .invalidCategory := by
  have h := settle_category_append c [] (Token.scan cs) [] (Token.space_not_mem_scan hcs)
  rw [List.append_nil, List.nil_append] at h
  rw [Phase.initial, h, settle_nil, finish, acceptCategory_scan c hne]
  split <;> rfl

/-- A category column with something behind it. -/
theorem settle_category (c : Classifier) {cs : List Char} (hne : cs ≠ []) (hcs : ' ' ∉ cs)
    (us : List Token) :
    settle c .initial (Token.scan cs ++ .space :: us) =
      if c.isCategory (String.ofList cs) then
        (.category (String.ofList cs) :: ·) <$> settle c (.hours []) us
      else throw .invalidCategory := by
  rw [Phase.initial, settle_category_append c [] _ _ (Token.space_not_mem_scan hcs),
    List.nil_append, settle_cons, step, acceptCategory_scan c hne]
  split
  · simp
  · rfl

/-! The phase `hours`: spaces are skipped, then the tokens up to the next space are decoded. -/

theorem settle_hours_spaces (c : Classifier) (n : Nat) (us : List Token) :
    settle c (.hours []) (List.replicate n .space ++ us) = settle c (.hours []) us := by
  induction n with
  | zero => rfl
  | succ n ih => simpa [List.replicate_succ, settle_cons, step] using ih

theorem settle_hours_append (c : Classifier) (acc ts us : List Token) (hts : .space ∉ ts) :
    settle c (.hours acc) (ts ++ us) = settle c (.hours (acc ++ ts)) us := by
  induction ts generalizing acc with
  | nil => simp
  | cons t ts ih =>
    obtain ⟨ht, hts⟩ : .space ≠ t ∧ .space ∉ ts := by simpa using hts
    have hstep : step c (.hours acc) t = pure (.hours (acc ++ [t]), none) := by
      cases t with
      | space => exact absurd rfl ht
      | _ => cases acc <;> rfl
    rw [List.cons_append, settle_cons, hstep]
    simp [ih _ hts]

/-- A duration column that ends the line. -/
theorem settle_hours_only (c : Classifier) {cs : List Char} (hcs : ' ' ∉ cs) :
    settle c (.hours []) (Token.scan cs) =
      (fun time => [.duration time]) <$> acceptDuration (Token.scan cs) := by
  have h := settle_hours_append c [] (Token.scan cs) [] (Token.space_not_mem_scan hcs)
  rw [List.append_nil, List.nil_append] at h
  rw [h, settle_nil, finish]
  simp

/-- A duration column with something behind it. -/
theorem settle_hours (c : Classifier) {cs : List Char} (hne : cs ≠ []) (hcs : ' ' ∉ cs)
    (us : List Token) :
    settle c (.hours []) (Token.scan cs ++ .space :: us) = (do
      let time ← acceptDuration (Token.scan cs)
      (.duration time :: ·) <$> settle c .task us) := by
  rw [settle_hours_append c [] _ _ (Token.space_not_mem_scan hcs), List.nil_append, settle_cons]
  cases h : Token.scan cs with
  | nil => exact absurd h (Token.scan_ne_nil hne)
  | cons t ts => simp [step]

/-! The phases `task` and `comment`: one word is tried as a task, the rest is kept. -/

theorem settle_task_spaces (c : Classifier) (n : Nat) (us : List Token) :
    settle c .task (List.replicate n .space ++ us) =
      (List.replicate n (.comment .space) ++ ·) <$> settle c .task us := by
  induction n with
  | zero => simp
  | succ n ih => simp [List.replicate_succ, settle_cons, step, ih]

/-- In the comment, every token is kept as it is. -/
theorem settle_comment (c : Classifier) (ts : List Token) :
    settle c .comment ts = pure (ts.map .comment) := by
  induction ts with
  | nil => rfl
  | cons t ts ih => simp [settle_cons, step, ih]

/-- The step that tries a run as a task. -/
theorem step_task_ofRun (c : Classifier) (word : List Char) :
    step c .task (Token.ofRun word) = pure (.comment, some
      (if ¬ Text.allDigits word ∧ c.isTask (String.ofList word) then .task (String.ofList word)
        else .comment (Token.ofRun word))) := by
  unfold Token.ofRun
  cases hd : Text.allDigits word <;> simp [step]

/-- Behind the duration and its spaces: the candidate is tried, all else is comment. -/
theorem settle_task (c : Classifier) {rest : List Char} (hrest : rest.head? ≠ some ' ') :
    settle c .task (Token.scan rest) = pure
      (if Grammar.BeginsWithTask c.isTask rest then
        .task (String.ofList (Grammar.candidate rest)) ::
          (Token.scan (rest.drop (Grammar.candidate rest).length)).map .comment
      else (Token.scan rest).map .comment) := by
  by_cases hword : Grammar.candidate rest = []
  · have hno : ¬ Grammar.BeginsWithTask c.isTask rest := fun h => h.1 hword
    rw [if_neg hno]
    cases rest with
    | nil => rfl
    | cons d rest =>
      have hdot : d = '.' := by
        have hd : d ≠ ' ' := by simpa using hrest
        simpa [Grammar.candidate, List.takeWhile_cons, hd] using hword
      have hstep : step c .task .dot = pure (.comment, some (.comment .dot)) := rfl
      rw [hdot, Token.scan_dot_cons, settle_cons, hstep]
      simp [settle_comment]
  · have hcut : rest = Grammar.candidate rest ++ rest.dropWhile Token.inRun :=
      List.takeWhile_append_dropWhile.symm
    have hdrop : rest.drop (Grammar.candidate rest).length = rest.dropWhile Token.inRun := by
      conv => lhs; arg 2; rw [hcut]
      exact List.drop_left
    have hscan : Token.scan rest =
        Token.ofRun (Grammar.candidate rest) :: Token.scan (rest.dropWhile Token.inRun) := by
      conv => lhs; rw [hcut]
      refine Token.scan_run_append hword (fun x hx => ?_) fun x hx => ?_
      · exact List.all_eq_true.mp List.all_takeWhile x hx
      · have := List.head?_dropWhile_not Token.inRun rest
        rw [hx] at this
        simpa using this
    rw [hscan, settle_cons, step_task_ofRun, hdrop]
    simp [settle_comment, Grammar.BeginsWithTask, hword]
    split <;> simp

/-! ## §3 The columns of a line -/

namespace Grammar

theorem space_not_mem_column (cs : List Char) : ' ' ∉ column cs := by
  intro h
  have := List.all_eq_true.mp (List.all_takeWhile (l := cs) (p := (· ≠ ' '))) ' ' h
  simp at this

theorem column_eq_self {cs : List Char} (h : ' ' ∉ cs) : column cs = cs := by
  rw [column, List.takeWhile_eq_self_iff]
  intro c hc
  simpa using fun e : c = ' ' => h (e ▸ hc)

theorem column_ne_nil {cs : List Char} (hne : cs ≠ []) (hcs : cs.head? ≠ some ' ') :
    column cs ≠ [] := by
  cases cs with
  | nil => exact absurd rfl hne
  | cons c cs =>
    have hc : c ≠ ' ' := by simpa using hcs
    simp [column, hc]

theorem head?_behind (cs : List Char) : (behind cs).head? ≠ some ' ' := by
  intro h
  have := List.head?_dropWhile_not (· = ' ') (cs.dropWhile (· ≠ ' '))
  rw [behind] at h
  rw [h] at this
  simp at this

theorem behind_eq_nil {cs : List Char} (h : ' ' ∉ cs) : behind cs = [] := by
  have : cs.dropWhile (· ≠ ' ') = [] := by
    rw [List.dropWhile_eq_nil_iff]
    intro c hc
    simpa using fun e : c = ' ' => h (e ▸ hc)
  rw [behind, this, List.dropWhile_nil]

/-- Leading spaces and what follows them. -/
theorem exists_spaces (cs : List Char) :
    ∃ n, cs = List.replicate n ' ' ++ cs.dropWhile (· = ' ') := by
  refine ⟨(cs.takeWhile (· = ' ')).length, ?_⟩
  have h : cs.takeWhile (· = ' ') = List.replicate (cs.takeWhile (· = ' ')).length ' ' := by
    rw [List.eq_replicate_iff]
    refine ⟨rfl, fun c hc => ?_⟩
    simpa using List.all_eq_true.mp List.all_takeWhile c hc
  rw [← h, List.takeWhile_append_dropWhile]

/-- A line with a space is its first column, at least one space, and the rest. -/
theorem exists_columns {cs : List Char} (h : ' ' ∈ cs) :
    ∃ n, cs = column cs ++ ' ' :: (List.replicate n ' ' ++ behind cs) := by
  have hcut : cs = column cs ++ cs.dropWhile (· ≠ ' ') := List.takeWhile_append_dropWhile.symm
  cases htail : cs.dropWhile (· ≠ ' ') with
  | nil =>
    rw [htail, List.append_nil] at hcut
    exact absurd (hcut ▸ h) (space_not_mem_column cs)
  | cons d tail =>
    have hd : d = ' ' := by
      have := List.head?_dropWhile_not (· ≠ ' ') cs
      rw [htail] at this
      simpa using this
    subst hd
    obtain ⟨n, hn⟩ := exists_spaces tail
    have hbehind : behind cs = tail.dropWhile (· = ' ') := by
      rw [behind, htail, List.dropWhile_cons_of_pos (by simp)]
    refine ⟨n, ?_⟩
    rw [hbehind, ← hn, ← htail, ← hcut]

end Grammar

/-! ## §4 From effects to the entry -/

theorem foldl_apply_comments (d : Draft) (ts : List Token) :
    (ts.map Effect.comment).foldl Draft.apply d = { d with comment := d.comment ++ ts } := by
  induction ts generalizing d with
  | nil => simp
  | cons t ts ih => simp [Draft.apply, ih]

theorem allChars_replicate_space (n : Nat) :
    Token.allChars (List.replicate n .space) = List.replicate n ' ' := by
  induction n with
  | zero => rfl
  | succ n ih => simp [List.replicate_succ, ih, Token.chars]

/-- The comment of the entry is what was read behind the duration or the task, trimmed. -/
theorem trimmed_join (n : Nat) (cs : List Char) :
    Text.trimmed (Token.join (List.replicate n .space ++ Token.scan cs)) =
      String.ofList (Text.trim cs) := by
  simp [Text.trimmed, allChars_replicate_space, Text.trim_spaces]

/-- What the effects of a line amount to. -/
theorem toEntry_foldl (isTask : String → Bool) (category : List Char) (time : WorkTime) (n : Nat)
    (rest : List Char) :
    ((.category (String.ofList category) :: .duration time ::
        (List.replicate n (.comment .space) ++
          if Grammar.BeginsWithTask isTask rest then
            .task (String.ofList (Grammar.candidate rest)) ::
              (Token.scan (rest.drop (Grammar.candidate rest).length)).map .comment
          else (Token.scan rest).map .comment)).foldl Draft.apply {}).toEntry =
      Grammar.entryOf isTask category time rest := by
  have hspaces : List.replicate n (Effect.comment .space) =
      (List.replicate n Token.space).map .comment := by simp
  rw [hspaces, List.foldl_cons, List.foldl_cons, List.foldl_append, foldl_apply_comments]
  unfold Grammar.entryOf
  split
  · rw [List.foldl_cons, Draft.apply, foldl_apply_comments]
    simp [Draft.toEntry, Draft.apply, trimmed_join]
  · rw [foldl_apply_comments]
    simp [Draft.toEntry, Draft.apply, trimmed_join]

/-- What stands behind the category decides between `invalidTime` and the entry. -/
theorem settle_behind (c : Classifier) (cs : List Char) (hcs : cs.head? ≠ some ' ') :
    ∃ n, settle c (.hours []) (Token.scan cs) =
      (do
        let time ← acceptDuration (Token.scan (Grammar.column cs))
        pure (.duration time :: (List.replicate n (.comment .space) ++
          if Grammar.BeginsWithTask c.isTask (Grammar.behind cs) then
            .task (String.ofList (Grammar.candidate (Grammar.behind cs))) ::
              (Token.scan ((Grammar.behind cs).drop
                (Grammar.candidate (Grammar.behind cs)).length)).map .comment
          else (Token.scan (Grammar.behind cs)).map .comment))) := by
  by_cases hspace : ' ' ∈ cs
  · obtain ⟨n, hn⟩ := Grammar.exists_columns hspace
    have hne : Grammar.column cs ≠ [] :=
      Grammar.column_ne_nil (List.ne_nil_of_mem hspace) hcs
    refine ⟨n, ?_⟩
    conv => lhs; rw [hn]
    rw [Token.scan_append_space, Token.scan_spaces,
      settle_hours c hne (Grammar.space_not_mem_column cs), settle_task_spaces,
      settle_task c (Grammar.head?_behind cs)]
    rfl
  · refine ⟨0, ?_⟩
    rw [Grammar.behind_eq_nil hspace, Grammar.column_eq_self hspace, settle_hours_only c hspace]
    simp [Grammar.BeginsWithTask, Grammar.candidate]

/-! ## §5 Reading by the grammar -/

/-- The machine reads a line as its grammar does. -/
theorem readEntry_eq_grammar (c : Classifier) (line : String)
    (hline : Text.trim line.toList ≠ []) :
    readEntry c (Text.trimmed line) = Grammar.entry c line.toList := by
  have hhead := Text.head?_trim line.toList
  rw [readEntry_eq_settle, Token.tokenize, Text.toList_trimmed]
  unfold Grammar.entry
  simp only [if_neg hline]
  generalize Text.trim line.toList = text at hline hhead
  by_cases hspace : ' ' ∈ text
  · obtain ⟨n, hn⟩ := Grammar.exists_columns hspace
    have hscan : Token.scan text = Token.scan (Grammar.column text) ++
        .space :: (List.replicate n .space ++ Token.scan (Grammar.behind text)) := by
      conv => lhs; rw [hn, Token.scan_append_space, Token.scan_spaces]
    obtain ⟨m, hm⟩ := settle_behind c (Grammar.behind text) (Grammar.head?_behind text)
    rw [hscan, settle_category c (Grammar.column_ne_nil hline hhead)
      (Grammar.space_not_mem_column text), settle_hours_spaces, hm]
    cases hcat : c.isCategory (String.ofList (Grammar.column text)) with
    | false => rfl
    | true =>
      simp only [if_true, Bool.not_true, Bool.false_eq_true, if_false, hspace, not_true]
      unfold acceptDuration
      rw [Token.tokenize, String.toList_ofList]
      cases WorkTime.ofTokens? (Token.scan (Grammar.column (Grammar.behind text))) with
      | none => rfl
      | some time =>
        simp only [pure_bind, map_pure, toEntry_foldl]
  · rw [settle_category_only c hline hspace, Grammar.column_eq_self hspace]
    cases c.isCategory (String.ofList text) with
    | false => rfl
    | true => simp [hspace]; rfl

theorem read_eq_grammar_entry (r : Reader) (workday : r.isHoliday = false) (line : String) :
    r.read line = Item.entry <$> Grammar.entry r.classifier line.toList := by
  unfold Reader.read
  by_cases hline : Text.trim line.toList = []
  · have hempty : (Text.trimmed line).isEmpty = true := by simp [Text.trimmed, hline]
    simp only [hempty, if_true, Grammar.entry, hline]
    rfl
  · have hempty : (Text.trimmed line).isEmpty = false := by simp [Text.trimmed, hline]
    simp only [hempty, workday, Bool.false_eq_true, if_false]
    rw [readEntry_eq_grammar r.classifier line hline]

/-- An entry is read on workdays only, and by the grammar. -/
theorem grammar_entry_of_read {r : Reader} {line : String} {e : Entry}
    (h : r.read line = .ok (.entry e)) : Grammar.entry r.classifier line.toList = .ok e := by
  cases hholiday : r.isHoliday with
  | true =>
    simp only [Reader.read, hholiday, if_true] at h
    split at h <;> cases h
  | false =>
    rw [read_eq_grammar_entry r hholiday] at h
    cases hentry : Grammar.entry r.classifier line.toList with
    | error p =>
      rw [hentry] at h
      cases h
    | ok e' =>
      rw [hentry] at h
      cases h
      rfl

namespace Grammar

@[simp] theorem entryOf_category (isTask : String → Bool) (category : List Char)
    (time : WorkTime) (rest : List Char) :
    (entryOf isTask category time rest).category = String.ofList category := by
  unfold entryOf
  split <;> rfl

theorem entryOf_hours (isTask : String → Bool) (category : List Char)
    (time : WorkTime) (rest : List Char) :
    (entryOf isTask category time rest).hours = time.hours := by
  unfold entryOf
  split <;> rfl

theorem entryOf_minutes (isTask : String → Bool) (category : List Char)
    (time : WorkTime) (rest : List Char) :
    (entryOf isTask category time rest).minutes = time.minutes := by
  unfold entryOf
  split <;> rfl

/-- The one word of a line that is tried as a task; it may be empty. -/
def taskWord (line : List Char) : String :=
  String.ofList (candidate (behind (behind (Text.trim line))))

/-- The grammar asks about no other word than the candidate. -/
theorem entry_congr_isTask (c : Classifier) (isTask : String → Bool) (line : List Char)
    (h : isTask (taskWord line) = c.isTask (taskWord line)) :
    entry { c with isTask } line = entry c line := by
  have hof : ∀ time,
      entryOf isTask (column (Text.trim line)) time (behind (behind (Text.trim line))) =
        entryOf c.isTask (column (Text.trim line)) time (behind (behind (Text.trim line))) := by
    intro time
    refine if_congr ?_ rfl rfl
    rw [taskWord] at h
    rw [BeginsWithTask, BeginsWithTask, h]
  simp only [entry, hof]

theorem behind_suffix (cs : List Char) : behind cs <:+ cs :=
  (List.dropWhile_suffix _).trans (List.dropWhile_suffix _)

/-- What a line has that is read as an entry. -/
theorem entry_eq_ok {c : Classifier} {line : List Char} {e : Entry} (h : entry c line = .ok e) :
    ' ' ∈ Text.trim line ∧ c.isCategory (String.ofList (column (Text.trim line))) = true ∧
    ∃ time, WorkTime.ofTokens? (Token.scan (column (behind (Text.trim line)))) = some time ∧
      e = entryOf c.isTask (column (Text.trim line)) time (behind (behind (Text.trim line))) := by
  simp only [entry] at h
  split at h
  · cases h
  · split at h
    · cases h
    · next hcategory =>
      split at h
      · cases h
      · next hspace =>
        split at h
        · cases h
        · next time htime =>
          cases h
          rw [Token.tokenize, String.toList_ofList] at htime
          exact ⟨not_not.mp hspace, by simpa using hcategory, time, htime, rfl⟩

/-- The comment is the end of the line, character for character. -/
theorem comment_suffix {c : Classifier} {line : List Char} {e : Entry}
    (h : entry c line = .ok e) : e.comment.toList <:+ Text.trim line := by
  have hrest : behind (behind (Text.trim line)) <:+ Text.trim line :=
    (behind_suffix _).trans (behind_suffix _)
  obtain ⟨_, _, time, _, rfl⟩ := entry_eq_ok h
  unfold entryOf
  split
  · rw [String.toList_ofList]
    exact Text.trim_suffix ((List.drop_suffix _ _).trans hrest)
  · rw [String.toList_ofList]
    exact Text.trim_suffix hrest

end Grammar

/-- **Reading is the grammar.** On a day that is no holiday a line is read as the grammar says,
whatever the classifier; a single word of it is tried as a task, and its comment is a stretch of
the line as it stands. -/
theorem read_eq_grammar (r : Reader) (workday : r.isHoliday = false) (line : String) :
    r.read line = Item.entry <$> Grammar.entry r.classifier line.toList ∧
    (∀ isTask : String → Bool,
      isTask (Grammar.taskWord line.toList) = r.classifier.isTask (Grammar.taskWord line.toList) →
      Reader.read ⟨{ r.classifier with isTask }, r.day⟩ line = r.read line) ∧
    ∀ e, r.read line = .ok (.entry e) → e.comment.toList <:+ Text.trim line.toList := by
  have hread := read_eq_grammar_entry r workday line
  refine ⟨hread, fun isTask h => ?_, fun e he => ?_⟩
  · have hother := read_eq_grammar_entry ⟨{ r.classifier with isTask }, r.day⟩ workday line
    rw [hread, hother, Grammar.entry_congr_isTask r.classifier isTask line.toList h]
  · rw [hread] at he
    cases hentry : Grammar.entry r.classifier line.toList with
    | error p => rw [hentry] at he; cases he
    | ok e' =>
      rw [hentry] at he
      cases he
      exact Grammar.comment_suffix hentry

/-- A line with white space around it, a dot that ends the task, and digits, dots and spaces in
its comment. -/
theorem read_eq_grammar_of_dotted_task :
    let r : Reader := ⟨{ regular := ["dev"] : Rules }.classifier, ⟨2022, 2, 2, by decide⟩⟩
    r.isHoliday = false ∧
    r.read "\u00a0dev  1.5 Task-7. see  v1.2 " = .ok (.entry
      { category := "dev", hours := 1, minutes := 30, task := some "Task-7"
        comment := ". see  v1.2" }) :=
  ⟨rfl, (read_eq_grammar _ rfl _).1.trans rfl⟩

end Daybook.Line
