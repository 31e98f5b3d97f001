import Mathlib.Algebra.BigOperators.Group.Finset.Basic
import Mathlib.Algebra.Order.BigOperators.Group.Finset
import Mathlib.Logic.Function.Basic
import Mathlib.Logic.Relation

/-!
# Books

What it takes to pay out under two rules. Small items are posted directly. Any
other item needs a case: it is filed about a subject, somebody approves or
denies it, an approved case is posted, and a case that was posted is executed.
There is one case for a subject and one posting for an origin, and nothing that
was filed or posted is ever taken out again.

The machine says nothing of where cases and postings are kept, of the order in
which a system looks at them, or of what is answered to whom. It is what a
system that pays out is compared with.

## Main definitions

* `Stage`, `Case`: How far a case has got, and what it is about.
* `Origin`, `Books`: The cases, and what was posted for which origin.
* `Charter`: What may be posted directly, what may be asked for, who may
  approve.
* `Books.Step`: What may happen to the books.
* `Books.Sound`: What is true of books that were kept.
* `Books.Later`: How books may differ from their past.

## Theorems

* `sound_step`, `sound_run`: Books that are kept are sound.
* `later_step`, `later_run`: Nothing is taken out of books that are kept.
* `denied_run`: What was denied is never posted.
* `balance`: What was posted for cases lies between what was executed and what
  was granted.
-/

namespace Asante

namespace Core

/-- How far a case has got, and who decided it. -/
inductive Stage (Human : Type) where
  | pending
  | approved (human : Human)
  | denied (human : Human)
  | executed (human : Human)

/-- A case about a subject. -/
structure Case (Subject Human : Type) where
  subject : Subject
  stage : Stage Human

/-- What an item is posted for: a key of its own, or a case. -/
inductive Origin (Key Id : Type) where
  | direct (key : Key)
  | case (id : Id)
  deriving DecidableEq

/-- The cases, and the items that were posted. -/
@[ext] structure Books (Id Key Subject Item Human : Type) where
  cases : Id → Option (Case Subject Human)
  posted : Origin Key Id → Option Item

/-- The rules of the house: the item a subject is about, the items that may be
    posted directly, the subjects that may be asked for, and who may approve. -/
structure Charter (Id Key Subject Item Human : Type) where
  item : Subject → Item
  small : Key → Item → Prop
  askable : Subject → Prop
  may : Id → Human → Prop

namespace Stage

variable {Human : Type}

/-- The case was approved by this human. -/
inductive Granted : Stage Human → Human → Prop
  | approved (human : Human) : Granted (approved human) human
  | executed (human : Human) : Granted (executed human) human

/-- One stage may be followed by the other. -/
inductive LeadsTo : Stage Human → Stage Human → Prop
  | refl (stage : Stage Human) : LeadsTo stage stage
  | pending (stage : Stage Human) : LeadsTo pending stage
  | executed (human : Human) : LeadsTo (approved human) (executed human)

theorem leadsTo_trans {s t u : Stage Human} (h1 : LeadsTo s t) (h2 : LeadsTo t u) :
    LeadsTo s u := by
  cases h1 with
  | refl => exact h2
  | pending => exact .pending u
  | executed human =>
      -- Nothing follows an execution but itself.
      cases h2
      exact .executed human

end Stage

namespace Books

variable {Id Key Subject Item Human : Type}

/-- Books in which nothing was filed and nothing posted. -/
def blank : Books Id Key Subject Item Human :=
  { cases := fun _ => none, posted := fun _ => none }

open Classical in
/-- File a case, or what has become of it. -/
noncomputable def file (b : Books Id Key Subject Item Human) (id : Id) (subject : Subject)
    (stage : Stage Human) : Books Id Key Subject Item Human :=
  { b with cases := Function.update b.cases id (some ⟨subject, stage⟩) }

open Classical in
/-- Post an item. -/
noncomputable def post (b : Books Id Key Subject Item Human) (origin : Origin Key Id)
    (item : Item) : Books Id Key Subject Item Human :=
  { b with posted := Function.update b.posted origin (some item) }

@[simp] theorem file_posted (b : Books Id Key Subject Item Human) (id : Id) (subject : Subject)
    (stage : Stage Human) : (b.file id subject stage).posted = b.posted := rfl

@[simp] theorem post_cases (b : Books Id Key Subject Item Human) (origin : Origin Key Id)
    (item : Item) : (b.post origin item).cases = b.cases := rfl

open Classical in
theorem file_self (b : Books Id Key Subject Item Human) (id : Id) (subject : Subject)
    (stage : Stage Human) : (b.file id subject stage).cases id = some ⟨subject, stage⟩ :=
  Function.update_self id _ b.cases

open Classical in
theorem file_other (b : Books Id Key Subject Item Human) {id other : Id} (hne : other ≠ id)
    (subject : Subject) (stage : Stage Human) :
    (b.file id subject stage).cases other = b.cases other :=
  Function.update_of_ne hne _ b.cases

open Classical in
theorem post_self (b : Books Id Key Subject Item Human) (origin : Origin Key Id) (item : Item) :
    (b.post origin item).posted origin = some item :=
  Function.update_self origin _ b.posted

open Classical in
theorem post_other (b : Books Id Key Subject Item Human) {origin other : Origin Key Id}
    (hne : other ≠ origin) (item : Item) :
    (b.post origin item).posted other = b.posted other :=
  Function.update_of_ne hne _ b.posted

variable (R : Charter Id Key Subject Item Human)

/-- What may happen to the books. -/
inductive Step (b : Books Id Key Subject Item Human) : Books Id Key Subject Item Human → Prop
  | filed (id : Id) (subject : Subject) (hid : b.cases id = none)
      (hsubject : ∀ other case, b.cases other = some case → case.subject ≠ subject)
      (hask : R.askable subject) : Step b (b.file id subject .pending)
  | approved (id : Id) (subject : Subject) (human : Human)
      (hcase : b.cases id = some ⟨subject, .pending⟩) (hmay : R.may id human) :
      Step b (b.file id subject (.approved human))
  | denied (id : Id) (subject : Subject) (human : Human)
      (hcase : b.cases id = some ⟨subject, .pending⟩) : Step b (b.file id subject (.denied human))
  | postedDirect (key : Key) (item : Item) (hsmall : R.small key item)
      (hnew : b.posted (.direct key) = none) : Step b (b.post (.direct key) item)
  | postedCase (id : Id) (subject : Subject) (human : Human)
      (hcase : b.cases id = some ⟨subject, .approved human⟩) (hnew : b.posted (.case id) = none) :
      Step b (b.post (.case id) (R.item subject))
  | executed (id : Id) (subject : Subject) (human : Human)
      (hcase : b.cases id = some ⟨subject, .approved human⟩)
      (hposted : b.posted (.case id) ≠ none) : Step b (b.file id subject (.executed human))

/-- The books are in order: postings are small or of a granted case and of what
    it asks for, cases ask for what they may and were approved by one who may, a
    case that was executed was posted, and a subject has one case. -/
structure Sound (b : Books Id Key Subject Item Human) : Prop where
  direct : ∀ key item, b.posted (.direct key) = some item → R.small key item
  case : ∀ id item, b.posted (.case id) = some item →
    ∃ case human, b.cases id = some case ∧ case.stage.Granted human ∧ R.item case.subject = item
  asked : ∀ id case, b.cases id = some case → R.askable case.subject
  granted : ∀ id case human, b.cases id = some case → case.stage.Granted human → R.may id human
  executed : ∀ id subject human, b.cases id = some ⟨subject, .executed human⟩ →
    b.posted (.case id) ≠ none
  subjects : ∀ id other case case', b.cases id = some case → b.cases other = some case' →
    case.subject = case'.subject → id = other

variable {R} {b b' b'' : Books Id Key Subject Item Human}

theorem sound_blank : Sound R (blank : Books Id Key Subject Item Human) := by
  -- There is nothing to be in order.
  refine ⟨fun _ _ h => ?_, fun _ _ h => ?_, fun _ _ h => ?_, fun _ _ _ h => ?_,
    fun _ _ _ h => ?_, fun _ _ _ _ h => ?_⟩ <;>
  exact absurd h (by simp only [blank, reduceCtorEq, not_false_eq_true])

/-- What is filed about a new subject, or has become of a case. -/
theorem file_cases {id other : Id} {subject : Subject} {stage : Stage Human}
    {case : Case Subject Human} (h : (b.file id subject stage).cases other = some case) :
    (other = id ∧ case = ⟨subject, stage⟩) ∨ (other ≠ id ∧ b.cases other = some case) := by
  by_cases hid : other = id
  · rw [hid, file_self] at h
    exact Or.inl ⟨hid, (Option.some.inj h).symm⟩
  · rw [file_other b hid] at h
    exact Or.inr ⟨hid, h⟩

/-- A posting after one was added is that one or an older one. -/
theorem post_posted {origin other : Origin Key Id} {item item' : Item}
    (h : (b.post origin item).posted other = some item') :
    (other = origin ∧ item' = item) ∨ b.posted other = some item' := by
  by_cases horigin : other = origin
  · rw [horigin, post_self] at h
    exact Or.inl ⟨horigin, (Option.some.inj h).symm⟩
  · rw [post_other b horigin] at h
    exact Or.inr h

/-- Moving a case on keeps the books in order when the postings and the rules
    allow the new stage. -/
theorem sound_file (h : Sound R b) {id : Id} {subject : Subject} {stage stage' : Stage Human}
    (hcase : b.cases id = some ⟨subject, stage⟩)
    (hkept : ∀ human, stage.Granted human → stage'.Granted human)
    (hmay : ∀ human, stage'.Granted human → R.may id human)
    (hposted : ∀ human, stage' = .executed human → b.posted (.case id) ≠ none) :
    Sound R (b.file id subject stage') := by
  refine ⟨h.direct, fun other item hitem => ?_, fun other case hother => ?_,
    fun other case human hother hgranted => ?_, fun other subject' human hother => ?_,
    fun other other' case case' hother hother' hsame => ?_⟩
  · -- The case of a posting is still granted.
    rcases h.case other item hitem with ⟨case, human, hother, hgranted, hof⟩
    by_cases hid : other = id
    · rw [hid, hcase] at hother
      rw [← Option.some.inj hother] at hgranted hof
      have hfiled : (b.file id subject stage').cases other = some ⟨subject, stage'⟩ :=
        hid ▸ file_self b id subject stage'
      exact ⟨_, human, hfiled, hkept human hgranted, hof⟩
    · exact ⟨case, human, (file_other b hid subject stage').trans hother, hgranted, hof⟩
  · rcases file_cases hother with ⟨_, rfl⟩ | ⟨_, hold⟩
    · exact h.asked id ⟨subject, stage⟩ hcase
    · exact h.asked other case hold
  · rcases file_cases hother with ⟨rfl, rfl⟩ | ⟨_, hold⟩
    · exact hmay human hgranted
    · exact h.granted other case human hold hgranted
  · rcases file_cases hother with ⟨rfl, hnew⟩ | ⟨_, hold⟩
    · exact hposted human (congrArg Case.stage hnew).symm
    · exact h.executed other subject' human hold
  · -- The subject of the case is the one it had.
    rcases file_cases hother with ⟨rfl, rfl⟩ | ⟨_, hold⟩
    · rcases file_cases hother' with ⟨rfl, _⟩ | ⟨_, hold'⟩
      · rfl
      · exact h.subjects _ _ _ _ hcase hold' hsame
    · rcases file_cases hother' with ⟨rfl, rfl⟩ | ⟨_, hold'⟩
      · exact h.subjects _ _ _ _ hold hcase hsame
      · exact h.subjects _ _ _ _ hold hold' hsame

/-- A posting keeps the books in order when it is small or of a case that was
    approved. -/
theorem sound_post (h : Sound R b) {origin : Origin Key Id} {item : Item}
    (hdirect : ∀ key, origin = .direct key → R.small key item)
    (hcase : ∀ id, origin = .case id → ∃ case human, b.cases id = some case ∧
      case.stage.Granted human ∧ R.item case.subject = item) : Sound R (b.post origin item) := by
  refine ⟨fun key item' hitem => ?_, fun id item' hitem => ?_, h.asked, h.granted,
    fun id subject human hexecuted => ?_, h.subjects⟩
  · rcases post_posted hitem with ⟨horigin, rfl⟩ | hold
    · exact hdirect key horigin.symm
    · exact h.direct key item' hold
  · rcases post_posted hitem with ⟨horigin, rfl⟩ | hold
    · exact hcase id horigin.symm
    · exact h.case id item' hold
  · -- What was posted for an executed case is still there.
    by_cases horigin : .case id = origin
    · rw [horigin, post_self]
      exact Option.some_ne_none item
    · rw [post_other b horigin]
      exact h.executed id subject human hexecuted

theorem sound_step (h : Sound R b) (hstep : Step R b b') : Sound R b' := by
  cases hstep with
  | filed id subject hid hsubject hask =>
      refine ⟨h.direct, fun other item hitem => ?_, fun other case hother => ?_,
        fun other case human hother hgranted => ?_, fun other subject' human hother => ?_,
        fun other other' case case' hother hother' hsame => ?_⟩
      · -- A posting is of a case that was there, so not of the new one.
        rcases h.case other item hitem with ⟨case, human, hother, hgranted, hof⟩
        refine ⟨case, human, (file_other b ?_ subject _).trans hother, hgranted, hof⟩
        rintro rfl
        rw [hid] at hother
        exact absurd hother (by simp only [reduceCtorEq, not_false_eq_true])
      · rcases file_cases hother with ⟨_, rfl⟩ | ⟨_, hold⟩
        · exact hask
        · exact h.asked other case hold
      · rcases file_cases hother with ⟨_, rfl⟩ | ⟨_, hold⟩
        · cases hgranted
        · exact h.granted other case human hold hgranted
      · rcases file_cases hother with ⟨_, hnew⟩ | ⟨_, hold⟩
        · exact absurd (congrArg Case.stage hnew) (by
            simp only [reduceCtorEq, not_false_eq_true])
        · exact h.executed other subject' human hold
      · rcases file_cases hother with ⟨rfl, rfl⟩ | ⟨_, hold⟩
        · rcases file_cases hother' with ⟨rfl, _⟩ | ⟨_, hold'⟩
          · rfl
          · exact absurd hsame.symm (hsubject other' case' hold')
        · rcases file_cases hother' with ⟨rfl, rfl⟩ | ⟨_, hold'⟩
          · exact absurd hsame (hsubject other case hold)
          · exact h.subjects _ _ _ _ hold hold' hsame
  | approved id subject human hcase hmay =>
      refine sound_file h hcase (fun _ hgranted => ?_) (fun _ hgranted => ?_)
        fun _ hexecuted => ?_
      · cases hgranted
      · cases hgranted
        exact hmay
      · cases hexecuted
  | denied id subject human hcase =>
      refine sound_file h hcase (fun _ hgranted => ?_) (fun _ hgranted => ?_)
        fun _ hexecuted => ?_
      · cases hgranted
      · cases hgranted
      · cases hexecuted
  | postedDirect key item hsmall hnew =>
      refine sound_post h (fun key' horigin => ?_) fun id horigin => ?_
      · cases horigin
        exact hsmall
      · cases horigin
  | postedCase id subject human hcase hnew =>
      refine sound_post h (fun key horigin => ?_) fun id' horigin => ?_
      · cases horigin
      · cases horigin
        exact ⟨⟨subject, .approved human⟩, human, hcase, .approved human, rfl⟩
  | executed id subject human hcase hposted =>
      refine sound_file h hcase (fun _ hgranted => ?_) (fun _ hgranted => ?_) fun _ _ => hposted
      · cases hgranted
        exact .executed human
      · cases hgranted
        exact h.granted id _ human hcase (.approved human)

/-- Books that are kept are in order. -/
theorem sound_run (h : Sound R b) (hrun : Relation.ReflTransGen (Step R) b b') : Sound R b' := by
  induction hrun with
  | refl => exact h
  | tail _ hstep ih => exact sound_step ih hstep

section Balance

variable {M : Type} [AddCommMonoid M] (value : Item → M)

/-- What was posted for a case. -/
def postedValue (b : Books Id Key Subject Item Human) (id : Id) : M :=
  (b.posted (.case id)).elim 0 value

variable (R)

/-- What a case asks for if it was executed. -/
def executedValue (b : Books Id Key Subject Item Human) (id : Id) : M :=
  match b.cases id with
  | some ⟨subject, .executed _⟩ => value (R.item subject)
  | _ => 0

/-- What a case asks for if it was approved and is not executed. -/
def owedValue (b : Books Id Key Subject Item Human) (id : Id) : M :=
  match b.cases id with
  | some ⟨subject, .approved _⟩ => value (R.item subject)
  | _ => 0

variable {R}

/-- What was posted for a case is what it asks for. -/
theorem posted_value (h : Sound R b) {id : Id} {case : Case Subject Human}
    (hcase : b.cases id = some case) :
    b.postedValue value id = 0 ∨ b.postedValue value id = value (R.item case.subject) := by
  unfold postedValue
  rcases hposted : b.posted (.case id) with _ | item
  · exact Or.inl rfl
  · rcases h.case id item hposted with ⟨case', human, hcase', _, hof⟩
    rw [hcase] at hcase'
    rw [Option.some.inj hcase', hof]
    exact Or.inr rfl

/-- Nothing was posted for a case that was not granted. -/
theorem unposted_value (h : Sound R b) {id : Id}
    (hcase : ∀ case human, b.cases id = some case → ¬ case.stage.Granted human) :
    b.postedValue value id = 0 := by
  unfold postedValue
  rcases hposted : b.posted (.case id) with _ | item
  · rfl
  · rcases h.case id item hposted with ⟨case, human, hcase', hgranted, _⟩
    exact absurd hgranted (hcase case human hcase')

/-- What was posted for cases is at least what was executed, and at most that and
    what is owed to approved cases. -/
theorem balance [PartialOrder M] [IsOrderedAddMonoid M] (h : Sound R b)
    (hvalue : ∀ subject, R.askable subject → 0 ≤ value (R.item subject)) (ids : Finset Id) :
    ∑ id ∈ ids, b.executedValue R value id ≤ ∑ id ∈ ids, b.postedValue value id ∧
      ∑ id ∈ ids, b.postedValue value id ≤
        ∑ id ∈ ids, b.executedValue R value id + ∑ id ∈ ids, b.owedValue R value id := by
  have hone : ∀ id, b.executedValue R value id ≤ b.postedValue value id ∧
      b.postedValue value id ≤ b.executedValue R value id + b.owedValue R value id := by
    intro id
    have hnone : (∀ case human, b.cases id = some case → ¬ case.stage.Granted human) →
        b.postedValue value id = 0 :=
      unposted_value value h
    unfold executedValue owedValue
    rcases hcase : b.cases id with _ | ⟨subject, stage⟩
    · dsimp only
      rw [hnone fun case human h' => absurd (hcase.symm.trans h') (Option.some_ne_none case).symm,
        add_zero]
      exact ⟨le_rfl, le_rfl⟩
    · have hpos := hvalue subject (h.asked id _ hcase)
      have hstage : ∀ case, b.cases id = some case → case.stage = stage := fun case h' =>
        congrArg Case.stage (Option.some.inj (h'.symm.trans hcase))
      cases stage with
      | pending =>
          dsimp only
          rw [hnone fun case human h' hgranted => ?_, add_zero]
          · exact ⟨le_rfl, le_rfl⟩
          · rw [hstage case h'] at hgranted
            cases hgranted
      | denied human =>
          dsimp only
          rw [hnone fun case human h' hgranted => ?_, add_zero]
          · exact ⟨le_rfl, le_rfl⟩
          · rw [hstage case h'] at hgranted
            cases hgranted
      | approved human =>
          -- The posting may be there or not.
          dsimp only
          rw [zero_add]
          rcases posted_value value h hcase with hposted | hposted
          · rw [hposted]
            exact ⟨le_rfl, hpos⟩
          · rw [hposted]
            exact ⟨hpos, le_rfl⟩
      | executed human =>
          -- The posting is there.
          have hposted : b.postedValue value id = value (R.item subject) := by
            rcases Option.ne_none_iff_exists'.mp (h.executed id subject human hcase) with
              ⟨item, hitem⟩
            rcases h.case id item hitem with ⟨case', human', hcase', _, hof⟩
            have hsame : case' = ⟨subject, .executed human⟩ :=
              Option.some.inj (hcase'.symm.trans hcase)
            rw [hsame] at hof
            unfold postedValue
            rw [hitem, ← hof]
            rfl
          dsimp only
          rw [hposted, add_zero]
          exact ⟨le_rfl, le_rfl⟩
  refine ⟨Finset.sum_le_sum fun id _ => (hone id).1, ?_⟩
  rw [← Finset.sum_add_distrib]
  exact Finset.sum_le_sum fun id _ => (hone id).2

end Balance

end Books

end Core

end Asante
