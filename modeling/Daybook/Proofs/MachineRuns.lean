/-
Daybook.Proofs.MachineRuns — nothing of a line is lost, or counted twice.

`Advance` lists all that one step of the machine can do (§1). The phases come
in one order (§2), and so do the effects: category, duration, spaces, perhaps
a task, and then comment only (§3). At every point the text that has been read
is what the effects hold and what is still being collected, with the spaces
that were skipped in between (§4). Main statement: `run_conserves`, about all
points of a run.
-/
import Daybook.Line.Machine
import Daybook.Proofs.Tokens

namespace Daybook.Line

/-! ## §1 One step -/

/-- In the phase `p` the token `t` leads to the phase `q`, and settles the effect `e`. -/
inductive Advance (c : Classifier) : Phase → Token → Phase → Option Effect → Prop
  | collectCategory {run : List Token} {t : Token} (ht : t ≠ .space) :
    Advance c (.category run) t (.category (run ++ [t])) none
  | settleCategory {run : List Token} (hne : run ≠ [])
      (hname : c.isCategory (Token.join run) = true) :
    Advance c (.category run) .space (.hours []) (some (.category (Token.join run)))
  | skipSpace : Advance c (.hours []) .space (.hours []) none
  | collectHours {run : List Token} {t : Token} (ht : t ≠ .space) :
    Advance c (.hours run) t (.hours (run ++ [t])) none
  | settleDuration {run : List Token} {time : WorkTime} (hne : run ≠ [])
      (htime : WorkTime.ofTokens? run = some time) :
    Advance c (.hours run) .space .task (some (.duration time))
  | keepSpace : Advance c .task .space .task (some (.comment .space))
  | takeTask {word : String} (hword : c.isTask word = true) :
    Advance c .task (.word word) .comment (some (.task word))
  | refuseTask {t : Token} (ht : t ≠ .space)
      (hword : ∀ word, t = .word word → c.isTask word = false) :
    Advance c .task t .comment (some (.comment t))
  | keep {t : Token} : Advance c .comment t .comment (some (.comment t))

theorem acceptCategory_eq_ok {c : Classifier} {run : List Token} {name : String}
    (h : acceptCategory c run = .ok name) :
    run ≠ [] ∧ c.isCategory (Token.join run) = true ∧ name = Token.join run := by
  unfold acceptCategory at h
  dsimp only at h
  split at h
  · next haccept =>
    cases h
    simpa using haccept
  · cases h

theorem acceptDuration_eq_ok {run : List Token} {time : WorkTime}
    (h : acceptDuration run = .ok time) : WorkTime.ofTokens? run = some time := by
  unfold acceptDuration at h
  split at h
  · next htime =>
    cases h
    exact htime
  · cases h

/-- **One step** does nothing but what is listed. -/
theorem Advance.of_step {c : Classifier} {p q : Phase} {t : Token} {e : Option Effect}
    (h : step c p t = .ok (q, e)) : Advance c p t q e := by
  cases p with
  | category run =>
    cases t with
    | space =>
      cases hname : acceptCategory c run with
      | error problem =>
        simp only [step, hname] at h
        cases h
      | ok name =>
        obtain ⟨hne, hcategory, rfl⟩ := acceptCategory_eq_ok hname
        simp only [step, hname] at h
        cases h
        exact .settleCategory hne hcategory
    | _ =>
      cases h
      exact .collectCategory (by simp)
  | hours run =>
    cases t with
    | space =>
      cases run with
      | nil =>
        cases h
        exact .skipSpace
      | cons first more =>
        cases htime : acceptDuration (first :: more) with
        | error problem =>
          simp only [step, htime] at h
          cases h
        | ok time =>
          simp only [step, htime] at h
          cases h
          exact .settleDuration (by simp) (acceptDuration_eq_ok htime)
    | _ => cases run <;> cases h <;> exact .collectHours (by simp)
  | task =>
    cases t with
    | space =>
      cases h
      exact .keepSpace
    | word word =>
      cases hword : c.isTask word with
      | true =>
        simp only [step, hword, if_true] at h
        cases h
        exact .takeTask hword
      | false =>
        simp only [step, hword] at h
        cases h
        exact .refuseTask (by simp) (by rintro _ ⟨⟩; exact hword)
    | _ =>
      cases h
      exact .refuseTask (by simp) (by simp)
  | comment =>
    cases h
    exact .keep

/-! ## §2 The order of the phases -/

/-- How far a phase is from the first one. -/
def Phase.rank : Phase → Nat
  | .category _ => 0
  | .hours _ => 1
  | .task => 2
  | .comment => 3

/-- No step leads back to an earlier phase. -/
theorem Advance.rank_le {c : Classifier} {p q : Phase} {t : Token} {e : Option Effect}
    (h : Advance c p t q e) : p.rank ≤ q.rank := by
  cases h <;> simp [Phase.rank]

/-! ## §3 The order of the effects -/

/-- The first effect behind the duration that is no space: a task, or a token that is none. -/
inductive Effect.IsFirst (c : Classifier) : Effect → Prop
  | task {word : String} (hword : c.isTask word = true) : IsFirst c (.task word)
  | comment {t : Token} (ht : t ≠ .space)
      (hword : ∀ word, t = .word word → c.isTask word = false) : IsFirst c (.comment t)

/-- What is settled behind the duration: spaces, and then perhaps a first effect that is no space,
behind which all is comment. -/
inductive Behind (c : Classifier) : Phase → List Effect → Prop
  | spaces (n : Nat) : Behind c .task (List.replicate n (.comment .space))
  | rest (n : Nat) {first : Effect} (hfirst : first.IsFirst c) (kept : List Token) :
    Behind c .comment (List.replicate n (.comment .space) ++ first :: kept.map .comment)

def Effect.isComment : Effect → Bool
  | comment _ => true
  | _ => false

/-- The characters that an effect keeps; those of a duration are not among them. -/
def Effect.chars : Effect → List Char
  | category name => name.toList
  | duration _ => []
  | task word => word.toList
  | comment t => t.chars

/-- Behind the duration every step settles an effect, which keeps the token. -/
theorem Behind.advance {c : Classifier} {p q : Phase} {t : Token} {e : Option Effect}
    {behind : List Effect} (h : Behind c p behind) (hstep : Advance c p t q e) :
    ∃ kept, e = some kept ∧ kept.chars = t.chars ∧ Behind c q (behind ++ [kept]) := by
  cases h with
  | spaces n =>
    cases hstep with
    | keepSpace =>
      refine ⟨_, rfl, rfl, ?_⟩
      rw [← List.replicate_succ']
      exact .spaces (n + 1)
    | takeTask hword => exact ⟨_, rfl, rfl, .rest n (.task hword) []⟩
    | refuseTask ht hword => exact ⟨_, rfl, rfl, .rest n (.comment ht hword) []⟩
  | rest n hfirst kept =>
    cases hstep with
    | keep =>
      refine ⟨_, rfl, rfl, ?_⟩
      have hmore := Behind.rest n hfirst (kept ++ [t])
      simpa using hmore

/-- The effects of a line in their order: its category, its duration, and what is behind it. -/
def InOrder (c : Classifier) (effects : List Effect) : Prop :=
  ∃ name time phase behind, Behind c phase behind ∧
    effects = .category name :: .duration time :: behind

/-! ## §4 The text that has been read -/

/-- The text that has been read up to a phase, put together again from the effects that are settled
and the tokens that are being collected. -/
def Reproduces (c : Classifier) (text : List Char) (effects : List Effect) : Phase → Prop
  | .category run => effects = [] ∧ text = Token.allChars run
  | .hours run => ∃ name spaces, c.isCategory name = true ∧ effects = [.category name] ∧
    text = name.toList ++ ' ' :: (List.replicate spaces ' ' ++ Token.allChars run)
  | .task | .comment => ∃ name spaces column time behind, c.isCategory name = true ∧
    WorkTime.ofTokens? column = some time ∧
    effects = .category name :: .duration time :: behind ∧
    text = name.toList ++ ' ' :: (List.replicate spaces ' ' ++
      (Token.allChars column ++ ' ' :: behind.flatMap Effect.chars))

/-- What has been read, and what has become of it. -/
inductive Account (c : Classifier) : List Char → Phase → List Effect → Prop
  | category (run : List Token) : Account c (Token.allChars run) (.category run) []
  | hours {name : String} (hname : c.isCategory name = true) (n : Nat) (run : List Token) :
    Account c (name.toList ++ ' ' :: (List.replicate n ' ' ++ Token.allChars run)) (.hours run)
      [.category name]
  | behind {name : String} (hname : c.isCategory name = true) (n : Nat) {column : List Token}
      {time : WorkTime} (htime : WorkTime.ofTokens? column = some time) {p : Phase}
      {behind : List Effect} (hbehind : Behind c p behind) :
    Account c (name.toList ++ ' ' :: (List.replicate n ' ' ++
      (Token.allChars column ++ ' ' :: behind.flatMap Effect.chars))) p
      (.category name :: .duration time :: behind)

/-- **One step** accounts for the token that it reads. -/
theorem Account.advance {c : Classifier} {text : List Char} {p q : Phase} {effects : List Effect}
    {t : Token} {e : Option Effect} (h : Account c text p effects) (hstep : Advance c p t q e) :
    Account c (text ++ t.chars) q (effects ++ e.toList) := by
  cases h with
  | category run =>
    cases hstep with
    | collectCategory ht =>
      have hmore := Account.category (c := c) (run ++ [t])
      simpa using hmore
    | settleCategory hne hname =>
      have hmore := Account.hours hname 0 []
      simpa [Token.chars] using hmore
  | hours hname n run =>
    cases hstep with
    | skipSpace =>
      have hmore := Account.hours hname (n + 1) []
      simpa [Token.chars, List.replicate_succ'] using hmore
    | collectHours ht =>
      have hmore := Account.hours hname n (run ++ [t])
      simpa using hmore
    | settleDuration hne htime =>
      have hmore := Account.behind hname n htime (.spaces 0)
      simpa [Token.chars] using hmore
  | behind hname n htime hbehind =>
    obtain ⟨kept, rfl, hchars, hmore⟩ := hbehind.advance hstep
    have hmore := Account.behind hname n htime hmore
    simpa [hchars] using hmore

/-! ## §5 Runs -/

/-- A run is a step, and a run from there. -/
theorem run_cons_eq_ok_iff {c : Classifier} {p q : Phase} {t : Token} {ts : List Token}
    {effects : List Effect} :
    run c p (t :: ts) = .ok (q, effects) ↔
      ∃ next e more, step c p t = .ok (next, e) ∧ run c next ts = .ok (q, more) ∧
        effects = e.toList ++ more := by
  rw [run]
  constructor
  · intro h
    cases hstep : step c p t with
    | error problem =>
      rw [hstep] at h
      cases h
    | ok reached =>
      obtain ⟨next, e⟩ := reached
      rw [hstep] at h
      simp only [bind, Except.bind] at h
      split at h
      · cases h
      · next last hrest =>
        cases h
        exact ⟨next, e, _, rfl, hrest, rfl⟩
  · rintro ⟨next, e, more, hstep, hrest, rfl⟩
    rw [hstep]
    simp only [bind, Except.bind, hrest]
    rfl

/-- A run that is not refused is not refused up to any point of it. -/
theorem exists_run_of_append {c : Classifier} {p q : Phase} {ts us : List Token}
    {effects : List Effect} (h : run c p (ts ++ us) = .ok (q, effects)) :
    ∃ reached before after, run c p ts = .ok (reached, before) ∧
      run c reached us = .ok (q, after) ∧ effects = before ++ after := by
  induction ts generalizing p effects with
  | nil => exact ⟨p, [], effects, rfl, h, rfl⟩
  | cons t ts ih =>
    obtain ⟨next, e, more, hstep, hrest, rfl⟩ := run_cons_eq_ok_iff.mp h
    obtain ⟨reached, before, after, hbefore, hafter, rfl⟩ := ih hrest
    refine ⟨reached, e.toList ++ before, after, ?_, hafter, (List.append_assoc ..).symm⟩
    exact run_cons_eq_ok_iff.mpr ⟨next, e, before, hstep, hbefore, rfl⟩

/-- No run leads back to an earlier phase. -/
theorem rank_le_of_run {c : Classifier} {p q : Phase} {ts : List Token} {effects : List Effect}
    (h : run c p ts = .ok (q, effects)) : p.rank ≤ q.rank := by
  induction ts generalizing p effects with
  | nil =>
    cases h
    exact Nat.le_refl _
  | cons t ts ih =>
    obtain ⟨next, e, more, hstep, hrest, _⟩ := run_cons_eq_ok_iff.mp h
    exact Nat.le_trans (Advance.of_step hstep).rank_le (ih hrest)

/-- **A run** accounts for all tokens that it reads. -/
theorem Account.run {c : Classifier} {text : List Char} {p q : Phase} {effects more : List Effect}
    {ts : List Token} (h : Account c text p effects) (hrun : run c p ts = .ok (q, more)) :
    Account c (text ++ Token.allChars ts) q (effects ++ more) := by
  induction ts generalizing text p effects more with
  | nil =>
    cases hrun
    simpa using h
  | cons t ts ih =>
    obtain ⟨next, e, rest, hstep, hrest, rfl⟩ := run_cons_eq_ok_iff.mp hrun
    have hmore := ih (h.advance (.of_step hstep)) hrest
    simpa using hmore

/-! ## §6 The main statement -/

/-- What holds of the effects `effects` when the tokens `ts` have led to the phase `p`. -/
structure Conserved (c : Classifier) (ts : List Token) (p : Phase) (effects : List Effect) :
    Prop where
  /-- The effects are those that a line begins with. -/
  inOrder : ∃ line, InOrder c line ∧ effects <+: line
  /-- Category, duration and task are settled in this order, and none of them twice. -/
  once : ∃ name time word,
    effects.filter (!·.isComment) <+: [.category name, .duration time, .task word]
  /-- No text is lost, and none is counted twice. -/
  reproduced : Reproduces c (Token.allChars ts) effects p

theorem filter_map_comment (ts : List Token) :
    (ts.map Effect.comment).filter (!·.isComment) = [] := by
  rw [List.filter_map]
  exact List.map_eq_nil_iff.mpr (List.filter_eq_nil_iff.mpr fun _ _ => by simp [Effect.isComment])

/-- Behind the duration at most a task is no comment. -/
theorem Behind.exists_task {c : Classifier} {p : Phase} {behind : List Effect}
    (h : Behind c p behind) : ∃ word, behind.filter (!·.isComment) <+: [.task word] := by
  have hspaces : ∀ n, (List.replicate n (Effect.comment .space)).filter (!·.isComment) = [] := by
    intro n
    rw [← List.map_replicate, filter_map_comment]
  cases h with
  | spaces n => exact ⟨"", by rw [hspaces]; exact List.nil_prefix⟩
  | rest n hfirst kept =>
    rw [List.filter_append, hspaces, List.nil_append]
    cases hfirst with
    | @task word hword =>
      rw [List.filter_cons_of_pos rfl, filter_map_comment]
      exact ⟨word, List.prefix_rfl⟩
    | comment ht hword =>
      rw [List.filter_cons_of_neg (by simp [Effect.isComment]), filter_map_comment]
      exact ⟨"", List.nil_prefix⟩

/-- Whatever accounts for the text conserves it. -/
theorem Account.conserved {c : Classifier} {ts : List Token} {p : Phase} {effects : List Effect}
    (h : Account c (Token.allChars ts) p effects) : Conserved c ts p effects := by
  have hnone : Behind c .task [] := .spaces 0
  generalize htext : Token.allChars ts = text at h
  cases h with
  | category run =>
    exact
      { inOrder := ⟨_, ⟨"", ⟨0, 0⟩, .task, [], hnone, rfl⟩, List.nil_prefix⟩
        once := ⟨"", ⟨0, 0⟩, "", List.nil_prefix⟩
        reproduced := ⟨rfl, htext⟩ }
  | @hours name hname n run =>
    exact
      { inOrder := ⟨_, ⟨name, ⟨0, 0⟩, .task, [], hnone, rfl⟩, by simp⟩
        once := ⟨name, ⟨0, 0⟩, "", by simp [Effect.isComment]⟩
        reproduced := ⟨name, n, hname, rfl, htext⟩ }
  | @behind name hname n column time htime _ behind hbehind =>
    obtain ⟨word, htask⟩ := hbehind.exists_task
    refine
      { inOrder := ⟨_, ⟨name, time, p, behind, hbehind, rfl⟩, List.prefix_rfl⟩
        once := ⟨name, time, word, ?_⟩
        reproduced := ?_ }
    · simpa [List.filter_cons, Effect.isComment] using htask
    · cases hbehind with
      | spaces m => exact ⟨name, n, column, time, _, hname, htime, rfl, htext⟩
      | rest m hfirst kept => exact ⟨name, n, column, time, _, hname, htime, rfl, htext⟩

/-- **Nothing of a line is lost, or counted twice.** At every point of a run from the beginning of
a line the phase is no later than those that follow, the effects so far are those that a line
begins with, and the text so far is what they keep and what is still being collected. -/
theorem run_conserves {c : Classifier} {ts : List Token} {p : Phase} {effects : List Effect}
    (h : run c .initial ts = .ok (p, effects)) {before : List Token} (hbefore : before <+: ts) :
    ∃ reached settled, run c .initial before = .ok (reached, settled) ∧
      reached.rank ≤ p.rank ∧ settled <+: effects ∧ Conserved c before reached settled := by
  obtain ⟨rest, rfl⟩ := hbefore
  obtain ⟨reached, settled, later, hreached, hrest, rfl⟩ := exists_run_of_append h
  have haccount := (Account.category (c := c) []).run hreached
  exact ⟨reached, settled, hreached, rank_le_of_run hrest, List.prefix_append ..,
    haccount.conserved⟩

/-- A category with a dot in it and a task with a dot behind it, at the end of the line and inside
its duration. -/
theorem run_conserves_dottedTask :
    let c := ({ regular := ["v1.2"] } : Rules).classifier
    let ts := Token.tokenize "v1.2  1.5  Task-7. 8"
    let effects : List Effect :=
      [.category "v1.2", .duration ⟨1, 30⟩, .comment .space, .task "Task-7", .comment .dot,
        .comment .space, .comment (.number 8 "8")]
    run c .initial ts = .ok (.comment, effects) ∧ ts.take 7 <+: ts ∧
    Conserved c ts .comment effects ∧
    Conserved c (ts.take 7) (.hours [.number 1 "1", .dot]) [.category "v1.2"] := by
  intro c ts effects
  have hrun : run c .initial ts = .ok (.comment, effects) := rfl
  have hinside : run c .initial (ts.take 7) =
    .ok (.hours [.number 1 "1", .dot], [.category "v1.2"]) := rfl
  obtain ⟨_, _, hend, _, _, hwhole⟩ := run_conserves hrun List.prefix_rfl
  obtain ⟨_, _, hreached, _, _, hpart⟩ := run_conserves hrun (List.take_prefix 7 ts)
  cases hrun.symm.trans hend
  cases hinside.symm.trans hreached
  exact ⟨hrun, List.take_prefix 7 ts, hwhole, hpart⟩

end Daybook.Line
