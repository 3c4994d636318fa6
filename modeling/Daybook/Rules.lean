/-
Daybook.Rules — categories, tasks and holidays.

Reading a line needs to know what counts as a category, a task and a holiday.
A `Classifier` is that knowledge and nothing more; `Rules` are the lists and
patterns a configuration gives, from which a classifier follows.

§1 classifiers, §2 rules, §3 the classifier of rules, §4 rules that make no
sense.
-/
import Daybook.Day.Text

namespace Daybook

/-! ## §1 Classifiers -/

/-- The predicates that reading and reporting need. -/
structure Classifier where
  isCategory : String → Bool
  isTask : String → Bool
  isHoliday : Day → Bool
  /-- Whether a category counts as overtime. -/
  isOvertime : String → Bool := fun _ => false
  /-- The categories to offer. -/
  categories : List String := []

/-! ## §2 Rules -/

/-- How a task is recognised: by what it begins with, and possibly by digits after that. -/
structure TaskPattern where
  stem : String := "Task-"
  onlyNumbers : Bool := true
deriving DecidableEq, Repr

/-- Categories, holidays and tasks as configured. -/
structure Rules where
  regular : List String := []
  overtime : List String := []
  /-- Holidays of every year, `MM-DD`. -/
  yearly : List String := []
  /-- Holidays of one year, `YYYY-MM-DD`. -/
  single : List String := []
  tasks : TaskPattern := {}
deriving DecidableEq, Repr

/-! ## §3 The classifier of rules -/

/-- Whether a text is a task: it begins with the stem, and what follows is
made of digits where only numbers count. Nothing has to follow. -/
def TaskPattern.accepts (p : TaskPattern) (text : String) : Bool :=
  let stem := p.stem.toList
  stem.isPrefixOf text.toList &&
    (!p.onlyNumbers || Text.allDigits (text.toList.drop stem.length))

namespace Rules

/-- Regular categories, then overtime ones. -/
def categories (r : Rules) : List String := r.regular ++ r.overtime

/-- Whether a day is a holiday. Days are compared in their written form, so a
configured text that is no written form of a day never matches. -/
def isHoliday (r : Rules) (d : Day) : Bool :=
  r.single.contains d.render || r.yearly.contains d.renderMonthDay

/-- What the rules say about categories, tasks and holidays. -/
def classifier (r : Rules) : Classifier where
  isCategory text := r.regular.contains text || r.overtime.contains text
  isTask := r.tasks.accepts
  isHoliday := r.isHoliday
  isOvertime category := r.overtime.contains category
  categories := r.categories

/-! ## §4 Rules that make no sense -/

/-- A category that no line could begin with. -/
inductive BadCategory where
  | empty
  | hasSpace (category : String)
deriving DecidableEq, Repr

def BadCategory.message : BadCategory → String
  | empty => "empty category"
  | hasSpace category => "category cannot contain spaces: " ++ Text.quoted category

/-- What is wrong with a category, if anything. -/
def badCategory? (category : String) : Option BadCategory :=
  if category.isEmpty then some .empty
  else if category.toList.contains ' ' then some (.hasSpace category)
  else none

/-- The first category of the rules that makes no sense. -/
def flaw? (r : Rules) : Option BadCategory := r.categories.findSome? badCategory?

end Rules

end Daybook
