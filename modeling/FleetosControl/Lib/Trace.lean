import Mathlib.Data.List.Basic
import Mathlib.Order.Basic

/-! Runs of a labelled transition relation, with their transitions, and rules for histories, for
commands computed from past states and for sequences of them. -/
namespace FleetosControl.Trace

variable {σ ι : Type}

structure Transition (σ ι : Type) where
  before : σ
  label : ι
  after : σ

inductive Run (step : σ → ι → σ → Prop) : σ → List (Transition σ ι) → σ → Prop where
  | nil (state : σ) : Run step state [] state
  | cons {state next last label rest} :
      step state label next → Run step next rest last → Run step state (⟨state,label,next⟩::rest) last

variable {step : σ → ι → σ → Prop} {first last : σ} {trace : List (Transition σ ι)}

theorem Run.step_of_mem (run : Run step first trace last) (transition : Transition σ ι) (member : transition ∈ trace) :
    step transition.before transition.label transition.after := by
  induction run with
  | nil => simp at member
  | cons taken rest ih =>
    rcases List.mem_cons.mp member with rfl | later
    · exact taken
    · exact ih later

theorem Run.append (run : Run step first before middle) (later : Run step middle after last) :
    Run step first (before ++ after) last := by
  induction run with
  | nil => exact later
  | cons taken _ ih => exact .cons taken (ih later)

/-- What one step keeps, under a condition on the step, a run keeps whose steps all meet it. -/
theorem Run.invariant (run : Run step first trace last) (inv : σ → Prop) (meets : Transition σ ι → Prop)
    (keeps : ∀ before label after, step before label after → meets ⟨before,label,after⟩ → inv before → inv after)
    (start : inv first) (all : ∀ transition ∈ trace, meets transition) :
    (∀ transition ∈ trace, inv transition.before ∧ inv transition.after) ∧ inv last := by
  induction run with
  | nil => exact ⟨by simp,start⟩
  | cons taken rest ih =>
    have next := keeps _ _ _ taken (all _ List.mem_cons_self) start
    have later := ih next (fun transition member => all transition (List.mem_cons_of_mem _ member))
    refine ⟨?_,later.2⟩
    intro transition member
    rcases List.mem_cons.mp member with rfl | member
    · exact ⟨start,next⟩
    · exact later.1 transition member

/-- Values that each lie above the level before their step and not above the level after it increase along a run. -/
theorem Run.emitted_increasing {α : Type} [Preorder α] (run : Run step first trace last) (level : σ → α)
    (emitted : Transition σ ι → Option α)
    (each : ∀ transition ∈ trace, level transition.before ≤ level transition.after ∧
      ∀ value ∈ emitted transition, level transition.before < value ∧ value ≤ level transition.after) :
    (trace.filterMap emitted).Pairwise (· < ·) ∧ ∀ value ∈ trace.filterMap emitted, level first < value := by
  induction run with
  | nil => simp
  | @cons state next last label rest taken later ih =>
    obtain ⟨increasing,above⟩ := ih fun transition member => each transition (List.mem_cons_of_mem _ member)
    obtain ⟨grows,between⟩ := each _ List.mem_cons_self
    have higher : ∀ value ∈ rest.filterMap emitted, level state < value :=
      fun value member => grows.trans_lt (above value member)
    cases found : emitted ⟨state,label,next⟩ with
    | none =>
      rw [List.filterMap_cons_none found]
      exact ⟨increasing,higher⟩
    | some value =>
      obtain ⟨below,reached⟩ := between value found
      rw [List.filterMap_cons_some found]
      refine ⟨List.pairwise_cons.mpr ⟨fun other member => reached.trans_lt (above other member),increasing⟩,?_⟩
      intro other member
      rcases List.mem_cons.mp member with rfl | member
      · exact below
      · exact higher other member

end FleetosControl.Trace

namespace FleetosControl.Latest

variable {α β : Type} {answers : α → Option β}

/-- What the last event that answers has answered. -/
def latest (answers : α → Option β) (events : List α) : Option β := events.reverse.findSome? answers

@[simp] theorem latest_nil : latest answers [] = none := rfl

theorem latest_append (earlier later : List α) :
    latest answers (earlier ++ later) = (latest answers later).or (latest answers earlier) := by
  simp [latest,List.findSome?_append]

theorem latest_single (event : α) : latest answers [event] = answers event := by
  simp [latest]

theorem latest_cons (event : α) (later : List α) :
    latest answers (event::later) = (latest answers later).or (answers event) := by
  rw [← List.singleton_append,latest_append,latest_single]

theorem latest_filter (relevant : α → Bool) (silent : ∀ event, relevant event = false → answers event = none)
    (events : List α) : latest answers (events.filter relevant) = latest answers events := by
  induction events with
  | nil => rfl
  | cons event events ih =>
    rw [latest_cons]
    cases chosen : relevant event with
    | false => rw [List.filter_cons_of_neg (by simp [chosen]),silent event chosen,Option.or_none,ih]
    | true => rw [List.filter_cons_of_pos (by simp [chosen]),latest_cons,ih]

end FleetosControl.Latest

namespace FleetosControl

variable {δ α β γ : Type}

inductive Reading (δ β : Type) where
  | done (result : β)
  | look (next : δ → Reading δ β)

namespace Reading

def eval (store : δ) : Reading δ β → β
  | done result => result
  | look next => (next store).eval store

def map (f : β → γ) : Reading δ β → Reading δ γ
  | done result => .done (f result)
  | look next => .look fun store => (next store).map f

def each (read : α → δ → γ) : List α → Reading δ (List γ)
  | [] => .done []
  | item :: items => .look fun store => (each read items).map (read item store :: ·)

@[simp] theorem eval_done (store : δ) (result : β) : (done result).eval store = result := rfl

@[simp] theorem eval_look (store : δ) (next : δ → Reading δ β) : (look next).eval store = (next store).eval store := rfl

@[simp] theorem eval_map (store : δ) (f : β → γ) (reading : Reading δ β) :
    (reading.map f).eval store = f (reading.eval store) := by
  induction reading with
  | done => rfl
  | look next ih => exact ih store

@[simp] theorem eval_each (store : δ) (read : α → δ → γ) (items : List α) :
    (each read items).eval store = items.map (read · store) := by
  induction items with
  | nil => rfl
  | cons item items ih => simp [each,ih]

end Reading

end FleetosControl

namespace FleetosControl.Unwinding

variable {σ ι ω : Type} {step : σ → ι → σ} {view : σ → ω} {hidden : ι → Bool} {holds : σ → ι → Prop} {start : σ}
  {inputs : List ι}

/-- The condition holds of every input, in the state the run has reached. -/
def Along (step : σ → ι → σ) (holds : σ → ι → Prop) : σ → List ι → Prop
  | _, [] => True
  | state, input :: rest => holds state input ∧ Along step holds (step state input) rest

structure Unwinds (step : σ → ι → σ) (view : σ → ω) (hidden : ι → Bool) (holds : σ → ι → Prop) : Prop where
  silent : ∀ state input, hidden input = true → holds state input → view (step state input) = view state
  consistent : ∀ left right input, hidden input = false → view left = view right →
    view (step left input) = view (step right input)

theorem Along.invariant {inv : σ → Prop} (keeps : ∀ state input, holds state input → inv state → inv (step state input))
    (along : Along step holds start inputs) (first : inv start) : inv (inputs.foldl step start) := by
  induction inputs generalizing start with
  | nil => exact first
  | cons input rest ih => exact ih along.2 (keeps start input along.1 first)

theorem Unwinds.purge (unwinds : Unwinds step view hidden holds) (same : view start = view other)
    (along : Along step holds start inputs) :
    view (inputs.foldl step start) = view ((inputs.filter fun input => !hidden input).foldl step other) := by
  induction inputs generalizing start other with
  | nil => exact same
  | cons input rest ih =>
    obtain ⟨met,later⟩ := along
    cases kind : hidden input with
    | true =>
      rw [List.filter_cons_of_neg (by simp [kind])]
      exact ih ((unwinds.silent start input kind met).trans same) later
    | false =>
      rw [List.filter_cons_of_pos (by simp [kind])]
      exact ih (unwinds.consistent start other input kind same) later

theorem Unwinds.agree (unwinds : Unwinds step view hidden holds) {left right : List ι}
    (same : (left.filter fun input => !hidden input) = right.filter fun input => !hidden input)
    (alongLeft : Along step holds start left) (alongRight : Along step holds start right) :
    view (left.foldl step start) = view (right.foldl step start) := by
  rw [unwinds.purge rfl alongLeft,unwinds.purge rfl alongRight,same]

end FleetosControl.Unwinding

namespace FleetosControl.Views
open Trace

variable {σ ι : Type} {proposes : σ → ι → Prop} {takes : σ → ι → σ → Prop}

structure History (σ : Type) where
  current : σ
  earlier : List σ

def History.fresh (state : σ) : History σ := ⟨state,[]⟩

def History.Seen (history : History σ) (view : σ) : Prop := view = history.current ∨ view ∈ history.earlier

def History.extend (history : History σ) (next : σ) : History σ := ⟨next,history.current::history.earlier⟩

@[simp] theorem History.fresh_current (state : σ) : (History.fresh state).current = state := rfl

@[simp] theorem History.extend_current (history : History σ) (next : σ) : (history.extend next).current = next := rfl

@[simp] theorem History.seen_fresh (state view : σ) : (History.fresh state).Seen view ↔ view = state := by
  simp [History.Seen,History.fresh]

@[simp] theorem History.seen_extend (history : History σ) (next view : σ) :
    (history.extend next).Seen view ↔ view = next ∨ history.Seen view := by
  simp [History.Seen,History.extend]

/-- The views that are no older than the current state of `origin`, an earlier stage of the same history. -/
def History.Since (origin history : History σ) (view : σ) : Prop :=
  ∃ later, history.earlier = later ++ origin.earlier ∧ view ∈ history.current :: later

def History.HoldsSince (origin : History σ) (holds : σ → Prop) (history : History σ) : Prop :=
  ∃ later, history.earlier = later ++ origin.earlier ∧ ∀ view ∈ history.current :: later, holds view

section
variable {origin history : History σ} {holds : σ → Prop}

theorem History.holdsSince_self (start : holds origin.current) : origin.HoldsSince holds origin :=
  ⟨[],rfl,by simpa using start⟩

section
variable (since : origin.HoldsSince holds history)
include since

theorem History.HoldsSince.current : holds history.current := by
  obtain ⟨later,_,all⟩ := since
  exact all _ List.mem_cons_self

theorem History.HoldsSince.extend (taken : holds next) : origin.HoldsSince holds (history.extend next) := by
  obtain ⟨later,split,all⟩ := since
  refine ⟨history.current :: later,by rw [History.extend,split,List.cons_append],?_⟩
  intro view member
  rcases List.mem_cons.mp member with rfl | earlier
  · exact taken
  · exact all view earlier

theorem History.HoldsSince.mono {weaker : σ → Prop} (weakens : ∀ view, holds view → weaker view) :
    origin.HoldsSince weaker history := by
  obtain ⟨later,split,all⟩ := since
  exact ⟨later,split,fun view member => weakens view (all view member)⟩

theorem History.HoldsSince.of_since (recent : origin.Since history view) : holds view := by
  obtain ⟨later,split,all⟩ := since
  obtain ⟨same,again,member⟩ := recent
  obtain rfl : same = later := List.append_cancel_right (again.symm.trans split)
  exact all view member

end

end

structure Commit (σ ι : Type) where
  view : σ
  command : ι

abbrev Committed (σ ι : Type) := Transition (History σ) (Commit σ ι)

inductive CommitStep (proposes : σ → ι → Prop) (takes : σ → ι → σ → Prop) :
    History σ → Commit σ ι → History σ → Prop where
  | commit {history : History σ} {view next : σ} {command : ι} :
      history.Seen view → proposes view command → takes history.current command next →
      CommitStep proposes takes history ⟨view,command⟩ (history.extend next)

theorem commitStep (seen : view = current ∨ view ∈ earlier) (proposed : proposes view command)
    (taken : takes current command next) :
    CommitStep proposes takes ⟨current,earlier⟩ ⟨view,command⟩ ⟨next,current::earlier⟩ := .commit seen proposed taken

theorem CommitStep.cases (step : CommitStep proposes takes before label after) :
    before.Seen label.view ∧ proposes label.view label.command ∧ takes before.current label.command after.current ∧
      after = before.extend after.current := by
  obtain ⟨seen,proposed,taken⟩ := step
  exact ⟨seen,proposed,taken,rfl⟩

section
variable {proposes : σ → ι → Prop} {takes : σ → ι → σ → Prop} {first last : History σ}
  {trace : List (Transition (History σ) (Commit σ ι))}

section
variable (run : Run (CommitStep proposes takes) first trace last) (holds : σ → Prop) (meets : σ → Commit σ ι → Prop)
  (keeps : ∀ current label next, holds current → holds label.view → proposes label.view label.command →
    takes current label.command next → meets current label → holds next)
  (start : ∀ view, first.Seen view → holds view)
  (all : ∀ transition ∈ trace, meets transition.before.current transition.label)
include run keeps start all

theorem run_histories : (∀ transition ∈ trace, (∀ view, transition.before.Seen view → holds view) ∧
      ∀ view, transition.after.Seen view → holds view) ∧ ∀ view, last.Seen view → holds view := by
  refine run.invariant (fun history => ∀ view, history.Seen view → holds view)
    (fun transition => meets transition.before.current transition.label) ?_ start all
  intro before label after step met seen view later
  obtain ⟨past,proposed,taken,extended⟩ := step.cases
  rw [extended,History.seen_extend] at later
  rcases later with rfl | earlier
  · exact keeps before.current label after.current (seen _ (.inl rfl)) (seen _ past) proposed taken met
  · exact seen view earlier

theorem run_seen : (∀ transition ∈ trace, holds transition.after.current) ∧ holds last.current := by
  obtain ⟨every,final⟩ := run_histories run holds meets keeps start all
  exact ⟨fun transition member => (every transition member).2 _ (.inl rfl),final _ (.inl rfl)⟩

theorem run_views : ∀ transition ∈ trace, holds transition.label.view := by
  obtain ⟨every,_⟩ := run_histories run holds meets keeps start all
  intro transition member
  obtain ⟨past,_⟩ := (run.step_of_mem transition member).cases
  exact (every transition member).1 _ past

end

theorem run_current {κ : Type} {step : σ → κ → σ → Prop} (read : ι → κ)
    (steps : ∀ current command next, takes current command next → step current (read command) next)
    (run : Run (CommitStep proposes takes) first trace last) :
    Run step first.current (trace.map fun transition =>
      ⟨transition.before.current,read transition.label.command,transition.after.current⟩) last.current := by
  induction run with
  | nil => exact .nil _
  | cons taken _ ih =>
    obtain ⟨_,_,committed,_⟩ := taken.cases
    exact .cons (steps _ _ _ committed) ih

/-- The rule for a second system that is handed the commands in the order of their commits. -/
theorem run_follows {τ : Type} (run : Run (CommitStep proposes takes) first trace last) (follow : τ → ι → τ)
    (agree : σ → τ → Prop) (meets : σ → Commit σ ι → Prop) (keeps :
    ∀ current label next beside, agree current beside → proposes label.view label.command →
      takes current label.command next → meets current label → agree next (follow beside label.command)) {beside}
    (start : agree first.current beside)
    (all : ∀ transition ∈ trace, meets transition.before.current transition.label) :
    agree last.current (trace.foldl (fun beside transition => follow beside transition.label.command) beside) := by
  induction run generalizing beside with
  | nil => exact start
  | cons taken _ ih =>
    obtain ⟨_,proposed,committed,_⟩ := taken.cases
    have next := keeps _ _ _ _ start proposed committed (all _ List.mem_cons_self)
    exact ih next fun transition member => all transition (List.mem_cons_of_mem _ member)

end

end FleetosControl.Views

namespace FleetosControl.Sequences
open Trace

variable {σ γ ι : Type}

/-- A sequence under way: whether one of its commands has been taken, and those that have not. -/
structure Running (γ : Type) where
  begun : Bool
  rest : List γ

structure Desk (σ γ : Type) where
  state : σ
  running : List (Running γ)

inductive Event (γ ι : Type) where
  | begins (sequence : ι)
  | takes (command : γ)
  | ends
  | breaks (running : Running γ)

variable (act : σ → γ → σ → Prop) (commands : ι → List γ)

inductive Proceeds : Desk σ γ → Event γ ι → Desk σ γ → Prop where
  | begins (state : σ) (running : List (Running γ)) (sequence : ι) :
      Proceeds ⟨state,running⟩ (.begins sequence) ⟨state,running ++ [⟨false,commands sequence⟩]⟩
  | takes {state next command} (front back : List (Running γ)) (begun : Bool) (rest : List γ) :
      act state command next →
      Proceeds ⟨state,front ++ ⟨begun,command::rest⟩::back⟩ (.takes command) ⟨next,front ++ ⟨true,rest⟩::back⟩
  | ends (state : σ) (front back : List (Running γ)) (begun : Bool) :
      Proceeds ⟨state,front ++ ⟨begun,[]⟩::back⟩ .ends ⟨state,front ++ back⟩
  | breaks (state : σ) (front back : List (Running γ)) (running : Running γ) :
      Proceeds ⟨state,front ++ running::back⟩ (.breaks running) ⟨state,front ++ back⟩

/-- Commands taken one after the other with nothing in between. -/
inductive Executes : σ → List γ → σ → Prop where
  | nil (state : σ) : Executes state [] state
  | cons {state next last command rest} :
      act state command next → Executes next rest last → Executes state (command::rest) last

variable {act}

theorem Executes.keeps {inv : σ → Prop} {allowed : γ → Prop}
    (step : ∀ state command next, act state command next → allowed command → inv state → inv next) {state last list}
    (executes : Executes act state list last) (all : ∀ command ∈ list, allowed command) (start : inv state) :
    inv last := by
  induction executes with
  | nil => exact start
  | cons taken _ ih =>
    exact ih (fun command member => all command (List.mem_cons_of_mem _ member))
      (step _ _ _ taken (all _ List.mem_cons_self) start)

/-- A sequence begins alone and where it fits, and is broken off only before its first command. -/
def Sound (fits : σ → ι → Prop) (transition : Transition (Desk σ γ) (Event γ ι)) : Prop :=
  match transition.label with
  | .begins sequence => transition.before.running = [] ∧ fits transition.before.state sequence
  | .breaks running => running.begun = false
  | _ => True

variable {commands} {inv : σ → Prop} {fits : σ → ι → Prop}

/-- What holds at a desk: with one sequence under way, what its other commands will lead to. -/
def Steady (act : σ → γ → σ → Prop) (inv : σ → Prop) (desk : Desk σ γ) : Prop :=
  desk.running = [] ∧ inv desk.state ∨ ∃ running, desk.running = [running] ∧ (running.begun = false → inv desk.state) ∧
    ∀ last, Executes act desk.state running.rest last → inv last

theorem alone {front back : List (Running γ)} {running only : Running γ} (same : front ++ running::back = [only]) :
    front = [] ∧ running = only ∧ back = [] := by
  cases front with
  | nil =>
    obtain ⟨rfl,rfl⟩ := List.cons.inj same
    exact ⟨rfl,rfl,rfl⟩
  | cons first front => simp at same

theorem steady_step (keeps : ∀ state sequence last, inv state → fits state sequence →
      Executes act state (commands sequence) last → inv last) {before after : Desk σ γ} {event : Event γ ι}
    (step : Proceeds act commands before event after) (sound : Sound fits ⟨before,event,after⟩)
    (steady : Steady act inv before) : Steady act inv after := by
  cases step with
  | begins state running sequence =>
    obtain ⟨none,fit⟩ := sound
    have kept : inv state := by
      rcases steady with ⟨_,kept⟩ | ⟨_,one,_⟩
      · exact kept
      · cases none.symm.trans one
    refine .inr ⟨⟨false,commands sequence⟩,?_,fun _ => kept,fun last => keeps state sequence last kept fit⟩
    exact congrArg (· ++ _) none
  | takes front back begun rest taken =>
    rcases steady with ⟨none,_⟩ | ⟨only,one,_,leads⟩
    · simp at none
    · obtain ⟨rfl,rfl,rfl⟩ := alone one
      exact .inr ⟨_,rfl,nofun,fun last executes => leads last (.cons taken executes)⟩
  | ends state front back begun =>
    rcases steady with ⟨none,_⟩ | ⟨only,one,_,leads⟩
    · simp at none
    · obtain ⟨rfl,rfl,rfl⟩ := alone one
      exact .inl ⟨rfl,leads state (.nil state)⟩
  | breaks state front back running =>
    rcases steady with ⟨none,_⟩ | ⟨only,one,untouched,_⟩
    · simp at none
    · obtain ⟨rfl,rfl,rfl⟩ := alone one
      exact .inl ⟨rfl,untouched sound⟩

/-- The rule for sequences: what each keeps alone holds between them. -/
theorem between_sequences (run : Run (Proceeds act commands) first trace last)
    (keeps : ∀ state sequence last, inv state → fits state sequence → Executes act state (commands sequence) last → inv last)
    (idle : first.running = []) (start : inv first.state) (sound : ∀ transition ∈ trace, Sound fits transition) :
    (∀ transition ∈ trace, transition.after.running = [] → inv transition.after.state) ∧
      (last.running = [] → inv last.state) := by
  have settled : ∀ desk : Desk σ γ, Steady act inv desk → desk.running = [] → inv desk.state := by
    rintro desk (⟨_,kept⟩ | ⟨_,one,_⟩) none
    · exact kept
    · cases none.symm.trans one
  obtain ⟨each,final⟩ := run.invariant (Steady act inv) (Sound fits)
    (fun before event after step sound steady => steady_step keeps step sound steady) (.inl ⟨idle,start⟩) sound
  exact ⟨fun transition member => settled _ (each transition member).2,settled _ final⟩

theorem rest_runs (executes : Executes act state rest last) (begun : Bool) :
    ∃ trace, Run (Proceeds act commands) ⟨state,[⟨begun,rest⟩]⟩ trace ⟨last,[]⟩ ∧
      ∀ transition ∈ trace, Sound fits transition := by
  induction executes generalizing begun with
  | nil state =>
    refine ⟨_,.cons (.ends state [] [] begun) (.nil _),?_⟩
    intro transition member
    rw [List.mem_singleton.mp member]
    trivial
  | cons taken _ ih =>
    obtain ⟨trace,run,sound⟩ := ih true
    refine ⟨_,.cons (.takes [] [] begun _ taken) run,?_⟩
    intro transition member
    rcases List.mem_cons.mp member with rfl | later
    · trivial
    · exact sound transition later

theorem sequence_runs {sequence} (fits : σ → ι → Prop) (fit : fits state sequence)
    (executes : Executes act state (commands sequence) last) :
    ∃ trace, Run (Proceeds act commands) ⟨state,[]⟩ trace ⟨last,[]⟩ ∧ ∀ transition ∈ trace, Sound fits transition := by
  obtain ⟨trace,run,sound⟩ := rest_runs executes false
  refine ⟨_,.cons (.begins state [] sequence) run,?_⟩
  intro transition member
  rcases List.mem_cons.mp member with rfl | later
  · exact ⟨rfl,fit⟩
  · exact sound transition later

end FleetosControl.Sequences
