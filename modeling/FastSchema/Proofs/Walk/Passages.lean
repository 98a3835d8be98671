import FastSchema.Proofs.Walk.Monitor
import FastSchema.Walk.Trace

/-! # From entering a node to leaving it

A monitor keeps the states that a walk enters nodes with. When a template or composite is left
without a fault, the state that it was entered with is compared with the state after it. -/

namespace FastSchema

variable {σ : Type}

namespace VisitorCall

def enters : VisitorCall → Bool
  | enterTemplate _ _ _ => true
  | enterComposite _ _ _ => true
  | _ => false

def leaves? : VisitorCall → Option NodeKind
  | exitTemplate _ _ _ _ => some .template
  | exitComposite c _ _ _ => some c.kind.nodeKind
  | _ => none

end VisitorCall

/-- A node that was left: the state before it was entered, if it was, and the state after it. -/
structure Passage (σ : Type) where
  kind : NodeKind
  before : Option σ
  after : σ

/-- The states before the nodes that are open, the innermost first, and the nodes that were left. -/
structure Watch (σ : Type) where
  opened : List σ
  passages : List (Passage σ)

namespace Watch

def enter (watch : Watch σ) (s : σ) : Watch σ := { watch with opened := s :: watch.opened }

def leave (watch : Watch σ) (kind : NodeKind) (s : σ) : Watch σ :=
  ⟨watch.opened.tail, watch.passages ++ [⟨kind, watch.opened.head?, s⟩]⟩

/-- Watches the templates and composites of a walk. -/
def monitor : Monitor σ (Watch σ) where
  before call s watch := if call.enters then watch.enter s else watch
  after call s watch := call.leaves?.elim watch fun kind => watch.leave kind s

end Watch

/-- The templates and composites that a walk from the given state leaves, each with the state that
it was entered with, until the walk ends or stops. -/
def Visitor.passages (v : Visitor (Fallible σ)) (doc : Document) (s : σ) : List (Passage σ) :=
  (((v.monitored Watch.monitor).walk doc).outcome (s, ⟨[], []⟩)).2.2.passages

/-- A walk up to the point where the document is left. -/
def Visitor.walkInside {m : Type → Type} [Monad m] (v : Visitor m) (doc : Document) : m Unit := do
  v.enterDocument doc doc.context
  v.walkTemplates doc.context 0 doc.templates

theorem Visitor.walk_eq_walkInside {m : Type → Type} [Monad m] [LawfulMonad m] (v : Visitor m)
    (doc : Document) :
    v.walk doc = v.walkInside doc >>= fun _ => v.exitDocument doc doc.context := by
  rw [walk, walkInside, bind_assoc]

/-! ## Walks that keep something from entering to leaving -/

/-- The state after the node is in the given relation to the one that the node was entered with. -/
def Passage.Keeps (rel : NodeKind → σ → σ → Prop) (p : Passage σ) : Prop :=
  ∃ before, p.before = some before ∧ rel p.kind before p.after

/-- The walks over single nodes do what the relation says, if they do not stop. The states that a
walk meets inside templates and those that it meets outside are told apart. -/
structure Visitor.KeepsOn (v : Visitor (Fallible σ)) (outside inside : σ → Prop)
    (rel : NodeKind → σ → σ → Prop) : Prop where
  enterTemplate : ∀ {t cx index s d s'}, outside s →
    (v.enterTemplate t cx index).outcome s = (.ok d, s') → inside s'
  walkTemplate : ∀ {cx index t s s'}, outside s →
    (v.walkTemplate cx index t).outcome s = (.ok (), s') → outside s' ∧ rel .template s s'
  enterComposite : ∀ {c cx index s s'}, inside s →
    (v.enterComposite c cx index).outcome s = (.ok .children, s') → inside s'
  walkComposite : ∀ {cx index head kind typeRef fields s s'}, inside s →
    (v.walkField cx index (.composite head kind typeRef fields)).outcome s = (.ok (), s') →
      inside s' ∧ rel kind.nodeKind s s'
  visitLeaf : ∀ {head content cx index s s'}, inside s →
    (v.visitLeaf head content cx index).outcome s = (.ok (), s') → inside s'

/-- What came of a part of a walk that began with the given account: all nodes that were left keep
the relation and, if the part did not stop, every node that it entered was left. -/
structure Tracked (rel : NodeKind → σ → σ → Prop) (after : σ → Prop) (watch : Watch σ)
    (outcome : Except Fault Unit × σ × Watch σ) : Prop where
  keeps : ∀ p ∈ outcome.2.2.passages, p.Keeps rel
  opened : outcome.1 = .ok () → outcome.2.2.opened = watch.opened
  after : outcome.1 = .ok () → after outcome.2.1

/-- A part of a walk that is tracked from every state before it. -/
def Tracks (rel : NodeKind → σ → σ → Prop) (before after : σ → Prop)
    (x : Fallible (σ × Watch σ) Unit) : Prop :=
  ∀ s watch, before s → (∀ p ∈ watch.passages, p.Keeps rel) →
    Tracked rel after watch (x.outcome (s, watch))

section

variable {rel : NodeKind → σ → σ → Prop} {P Q R : σ → Prop}

theorem Tracked.stopped {watch watch' : Watch σ} {s : σ} (fault : Fault)
    (h : ∀ p ∈ watch'.passages, p.Keeps rel) : Tracked rel P watch (.error fault, s, watch') :=
  ⟨h, fun hok => (by cases hok), fun hok => (by cases hok)⟩

theorem Tracked.ended {watch watch' : Watch σ} {s : σ} (h : ∀ p ∈ watch'.passages, p.Keeps rel)
    (hopened : watch'.opened = watch.opened) (hs : P s) :
    Tracked rel P watch (.ok (), s, watch') :=
  ⟨h, fun _ => hopened, fun _ => hs⟩

theorem Tracks.pure : Tracks rel P P (pure ()) := fun _ _ hs hkeeps => .ended hkeeps rfl hs

theorem Tracks.bind {x y : Fallible (σ × Watch σ) Unit} (hx : Tracks rel P Q x)
    (hy : Tracks rel Q R y) : Tracks rel P R (x >>= fun _ => y) := by
  intro s watch hs hkeeps
  have hfirst := hx s watch hs hkeeps
  rw [Fallible.outcome_bind]
  cases hout : x.outcome (s, watch) with
  | mk answer left =>
      rw [hout] at hfirst
      cases answer with
      | error fault => exact .stopped fault hfirst.keeps
      | ok a =>
          have hrest := hy left.1 left.2 (hfirst.after rfl) hfirst.keeps
          exact ⟨hrest.keeps, fun hok => (hrest.opened hok).trans (hfirst.opened rfl), hrest.after⟩

theorem Tracks.plain {call : VisitorCall} {x : Fallible σ Unit} (hentered : call.enters = false)
    (hleft : call.leaves? = none) (hx : ∀ s s', P s → x.outcome s = (.ok (), s') → Q s') :
    Tracks rel P Q (Watch.monitor.around call x) := by
  intro s watch hs hkeeps
  rw [Monitor.outcome_around]
  simp only [Watch.monitor, hentered, hleft, Option.elim_none, Bool.false_eq_true, if_false]
  cases hout : x.outcome s with
  | mk answer s' =>
      cases answer with
      | error fault => exact .stopped fault hkeeps
      | ok a => exact .ended hkeeps rfl (hx s s' hs hout)

variable {entering leaving : VisitorCall} {kind : NodeKind} {enter : Fallible σ Descend}
  {exit whole : Fallible σ Unit} {body : Fallible (σ × Watch σ) Unit}

/-- Leaving a node that was entered with the state `s`, after all nodes inside it were left. -/
theorem Tracked.leave (hentered : leaving.enters = false) (hleft : leaving.leaves? = some kind)
    {s s₂ : σ} {watch watch₂ : Watch σ} (hopened : watch₂.opened = s :: watch.opened)
    (hkeeps : ∀ p ∈ watch₂.passages, p.Keeps rel)
    (hrel : ∀ s₃, exit.outcome s₂ = (.ok (), s₃) → R s₃ ∧ rel kind s s₃) :
    Tracked rel R watch ((Watch.monitor.around leaving exit).outcome (s₂, watch₂)) := by
  rw [Monitor.outcome_around]
  simp only [Watch.monitor, hentered, hleft, Option.elim_some, Bool.false_eq_true, if_false]
  cases hexit : exit.outcome s₂ with
  | mk answer s₃ =>
      cases answer with
      | error fault => exact .stopped fault hkeeps
      | ok a =>
          obtain ⟨hs₃, hkept⟩ := hrel s₃ hexit
          have hclosed : (watch₂.leave kind s₃).opened = watch.opened := by
            rw [Watch.leave, hopened]
            rfl
          refine .ended (fun p hp => ?_) hclosed hs₃
          rcases List.mem_append.mp hp with hp | hp
          · exact hkeeps p hp
          · obtain rfl := List.mem_singleton.mp hp
            exact ⟨s, by rw [hopened]; rfl, hkept⟩

/-- Entering a node, visiting its fields if so told, and leaving it. The states before and after are
those of the whole walk over the node. -/
theorem Tracks.node (hentered : entering.enters) (hleft : entering.leaves? = none)
    (hentered' : leaving.enters = false) (hleft' : leaving.leaves? = some kind)
    (hwhole : Accounts (do
        let d ← Watch.monitor.around entering enter
        if d = Descend.children then body
        Watch.monitor.around leaving exit) whole)
    (hbody : Tracks rel Q Q body)
    (henter : ∀ s s', P s → enter.outcome s = (.ok .children, s') → Q s')
    (hrel : ∀ s s', P s → whole.outcome s = (.ok (), s') → R s' ∧ rel kind s s') :
    Tracks rel P R (do
      let d ← Watch.monitor.around entering enter
      if d = Descend.children then body
      Watch.monitor.around leaving exit) := by
  intro s watch hs hkeeps
  have hsame := hwhole s watch
  have henters : (Watch.monitor.around entering enter).outcome (s, watch) =
      ((enter.outcome s).1, ((enter.outcome s).2, watch.enter s)) := by
    rw [Monitor.outcome_around]
    simp only [Watch.monitor, hentered, hleft, Option.elim_none, if_true]
    rcases enter.outcome s with ⟨_ | _, t⟩ <;> rfl
  -- Once the fields are done, the walk over the node ends as leaving the node does.
  have hfinish : ∀ s₂ watch₂,
      whole.outcome s =
        (((Watch.monitor.around leaving exit).outcome (s₂, watch₂)).1,
          ((Watch.monitor.around leaving exit).outcome (s₂, watch₂)).2.1) →
      ∀ s₃, exit.outcome s₂ = (.ok (), s₃) → R s₃ ∧ rel kind s s₃ := by
    intro s₂ watch₂ hends s₃ hexit
    refine hrel s s₃ hs ?_
    rw [hends, Monitor.outcome_around, hexit]
  rw [Fallible.outcome_bind, henters] at hsame ⊢
  cases hd : enter.outcome s with
  | mk d s₁ =>
      simp only [hd] at hsame ⊢
      cases d with
      | error fault => exact .stopped fault hkeeps
      | ok d =>
          have hopened : (watch.enter s).opened = s :: watch.opened := rfl
          cases d with
          | skip => exact .leave hentered' hleft' hopened hkeeps (hfinish s₁ _ hsame)
          | children =>
              have hfields := hbody s₁ (watch.enter s) (henter s s₁ hs hd) hkeeps
              cases hout : body.outcome (s₁, watch.enter s) with
              | mk answer left =>
                  simp only [if_true, Fallible.outcome_bind, hout] at hsame hfields ⊢
                  cases answer with
                  | error fault => exact .stopped fault hfields.keeps
                  | ok a =>
                      exact .leave hentered' hleft' (hfields.opened rfl) hfields.keeps
                        (hfinish left.1 left.2 hsame)

end

/-! ## Walks -/

namespace Visitor.KeepsOn

variable {v : Visitor (Fallible σ)} {outside inside : σ → Prop} {rel : NodeKind → σ → σ → Prop}

mutual

theorem tracks_walkField (h : v.KeepsOn outside inside rel) (cx : Context) (index : Nat)
    (field : Field) :
    Tracks rel inside inside ((v.monitored Watch.monitor).walkField cx index field) := by
  cases field with
  | leaf head content => exact Tracks.plain rfl rfl fun _ _ hs hout => h.visitLeaf hs hout
  | composite head kind typeRef fields =>
      exact Tracks.node rfl rfl rfl rfl
        (composable_accounts.walkField (v.accounts_perform Watch.monitor) cx index
          (.composite head kind typeRef fields))
        (h.tracks_walkFields (cx.inherit head.attrs) 0 fields)
        (fun _ _ hs hout => h.enterComposite hs hout) fun _ _ hs hout => h.walkComposite hs hout

theorem tracks_walkFields (h : v.KeepsOn outside inside rel) (cx : Context) (index : Nat)
    (fields : List Field) :
    Tracks rel inside inside ((v.monitored Watch.monitor).walkFields cx index fields) := by
  cases fields with
  | nil => exact Tracks.pure
  | cons field fields =>
      exact (h.tracks_walkField cx index field).bind (h.tracks_walkFields cx (index + 1) fields)

end

theorem tracks_walkTemplate (h : v.KeepsOn outside inside rel) (cx : Context) (index : Nat)
    (t : Template) :
    Tracks rel outside outside ((v.monitored Watch.monitor).walkTemplate cx index t) :=
  Tracks.node rfl rfl rfl rfl
    (composable_accounts.walkTemplate (v.accounts_perform Watch.monitor) cx index t)
    (h.tracks_walkFields (cx.inherit t.attrs) 0 t.fields)
    (fun _ _ hs hout => h.enterTemplate hs hout) fun _ _ hs hout => h.walkTemplate hs hout

theorem tracks_walkTemplates (h : v.KeepsOn outside inside rel) (cx : Context) (index : Nat)
    (ts : List Template) :
    Tracks rel outside outside ((v.monitored Watch.monitor).walkTemplates cx index ts) := by
  induction ts generalizing index with
  | nil => exact Tracks.pure
  | cons t ts ih => exact (h.tracks_walkTemplate cx index t).bind (ih (index + 1))

/-- Every node that a walk leaves keeps the relation, also if the walk stops later on. -/
theorem keeps_of_mem_passages (h : v.KeepsOn outside inside rel) {doc : Document} {s : σ}
    (hstart : ∀ s', (v.enterDocument doc doc.context).outcome s = (.ok (), s') → outside s')
    {p : Passage σ} (hp : p ∈ v.passages doc s) : p.Keeps rel := by
  have henter : Tracks rel (· = s) outside
      ((v.monitored Watch.monitor).enterDocument doc doc.context) :=
    Tracks.plain rfl rfl fun _ s' hs hout => hstart s' (hs ▸ hout)
  have hexit : Tracks rel outside (fun _ => True)
      ((v.monitored Watch.monitor).exitDocument doc doc.context) :=
    Tracks.plain rfl rfl fun _ _ _ _ => trivial
  have hwalk : Tracks rel (· = s) (fun _ => True) ((v.monitored Watch.monitor).walk doc) :=
    henter.bind ((h.tracks_walkTemplates doc.context 0 doc.templates).bind hexit)
  exact (hwalk s ⟨[], []⟩ rfl (by simp)).keeps p hp

end Visitor.KeepsOn

end FastSchema
