import Mathlib.Data.List.Basic
import Mathlib.Tactic

/-!
# Channels: a link to a peer that answers in order

A link carries requests one way and messages the other way.  Its peer answers each
request it has got once, the oldest first, and may send messages it was not asked for.
The messages themselves do not say what they answer: that is kept beside them here and
seen by nobody.

What is *owed* on a link are the requests whose answer has not been read, in the order
in which their answers will be read.

**Rules.**
* `Owes.send`, `Owes.answer`, `Owes.volunteer`: sending appends to what is owed on a
  link, and the peer does not change it.
* `Owes.receive`: with one answer owed, what is read is that answer or a message nobody
  asked for.
* `Honest.send`, `Honest.answer`, `Honest.volunteer`, `Honest.receive`: every answer
  that is read is in the peer's record.
* `countP_pending_send`, `countP_pending_answer`: a request is pending once for each
  time it is sent, until it is answered.
-/

namespace CockatielEngine

universe u v

/-- A message from the peer, and the request it answers. -/
structure Arrival (ρ : Type u) (μ : Type v) where
  answers : Option ρ
  message : μ
deriving DecidableEq

/-- A link: the requests the peer has not answered and the messages that have not been
read, oldest first. -/
structure OrderedLink (ρ : Type u) (μ : Type v) where
  pending : List ρ := []
  arrived : List (Arrival ρ μ) := []
deriving DecidableEq

namespace OrderedLink

variable {ρ : Type u} {μ : Type v}

section Defs

def send (l : OrderedLink ρ μ) (r : ρ) : OrderedLink ρ μ :=
  { l with pending := l.pending ++ [r] }

/-- The peer answers the oldest pending request. -/
def answer (l : OrderedLink ρ μ) (m : μ) : Option (ρ × OrderedLink ρ μ) :=
  match l.pending with
  | [] => none
  | r :: rest =>
      some (r, { pending := rest, arrived := l.arrived ++ [⟨some r, m⟩] })

/-- The peer sends what it was not asked for. -/
def volunteer (l : OrderedLink ρ μ) (m : μ) : OrderedLink ρ μ :=
  { l with arrived := l.arrived ++ [⟨none, m⟩] }

def receive (l : OrderedLink ρ μ) : Option (Arrival ρ μ × OrderedLink ρ μ) :=
  match l.arrived with
  | [] => none
  | a :: rest => some (a, { l with arrived := rest })

/-- The requests whose answers have not been read. -/
def owed (l : OrderedLink ρ μ) : List ρ :=
  l.arrived.filterMap Arrival.answers ++ l.pending

/-- The answers on the link are among those the peer gave. -/
def Recorded (record : List (ρ × μ)) (l : OrderedLink ρ μ) : Prop :=
  ∀ a ∈ l.arrived, ∀ r, a.answers = some r → (r, a.message) ∈ record

/-- Only messages of this kind come without having been asked for. -/
def Volunteers (p : μ → Prop) (l : OrderedLink ρ μ) : Prop :=
  ∀ a ∈ l.arrived, a.answers = none → p a.message

end Defs

section Owed

variable {l l' : OrderedLink ρ μ} {r : ρ} {m : μ} {a : Arrival ρ μ}

@[simp] theorem owed_send :
    (l.send r).owed = l.owed ++ [r] :=
  (List.append_assoc ..).symm

@[simp] theorem owed_volunteer :
    (l.volunteer m).owed = l.owed := by
  have harrived :
      (l.arrived ++ [(⟨none, m⟩ : Arrival ρ μ)]).filterMap Arrival.answers =
        l.arrived.filterMap Arrival.answers := by
    rw [List.filterMap_append]
    exact List.append_nil _
  exact congrArg (· ++ l.pending) harrived

theorem answer_eq_some_iff :
    l.answer m = some (r, l') ↔
      ∃ rest, l.pending = r :: rest ∧
        l' = { pending := rest, arrived := l.arrived ++ [⟨some r, m⟩] } := by
  obtain ⟨pending, arrived⟩ := l
  constructor
  · intro h
    cases pending with
    | nil => cases h
    | cons q rest =>
        cases h
        exact ⟨rest, rfl, rfl⟩
  · rintro ⟨rest, hpending, rfl⟩
    cases hpending
    rfl

theorem receive_eq_some_iff :
    l.receive = some (a, l') ↔
      ∃ rest, l.arrived = a :: rest ∧ l' = { l with arrived := rest } := by
  obtain ⟨pending, arrived⟩ := l
  constructor
  · intro h
    cases arrived with
    | nil => cases h
    | cons b rest =>
        cases h
        exact ⟨rest, rfl, rfl⟩
  · rintro ⟨rest, harrived, rfl⟩
    cases harrived
    rfl

/-- An answer takes the place of its request. -/
theorem owed_answer
    (h : l.answer m = some (r, l')) :
    l'.owed = l.owed := by
  obtain ⟨rest, hpending, rfl⟩ := answer_eq_some_iff.mp h
  simp [owed, hpending]

/-- Reading takes the request of the message off what is owed. -/
theorem owed_receive
    (h : l.receive = some (a, l')) :
    l.owed = a.answers.toList ++ l'.owed := by
  obtain ⟨rest, harrived, rfl⟩ := receive_eq_some_iff.mp h
  cases ha : a.answers <;> simp [owed, harrived, ha]

/-- With one answer owed, that answer is read, or a message nobody asked for. -/
theorem receive_of_owed_singleton
    (howed : l.owed = [r])
    (h : l.receive = some (a, l')) :
    (a.answers = some r ∧ l'.owed = []) ∨ (a.answers = none ∧ l'.owed = [r]) := by
  have hsplit := owed_receive h
  rw [howed] at hsplit
  cases ha : a.answers with
  | none =>
      rw [ha] at hsplit
      exact Or.inr ⟨rfl, hsplit.symm⟩
  | some r' =>
      rw [ha] at hsplit
      obtain ⟨rfl, hnil⟩ : r = r' ∧ [] = l'.owed := by simpa using hsplit
      exact Or.inl ⟨rfl, hnil.symm⟩

end Owed

section Records

variable {l l' : OrderedLink ρ μ} {r : ρ} {m : μ} {a : Arrival ρ μ}
variable {record record' : List (ρ × μ)} {p : μ → Prop}

theorem Recorded.mono
    (h : l.Recorded record)
    (hsub : record ⊆ record') :
    l.Recorded record' :=
  fun a ha r hr => hsub (h a ha r hr)

theorem Recorded.send
    (h : l.Recorded record) :
    (l.send r).Recorded record :=
  h

theorem Recorded.answer
    (h : l.Recorded record)
    (hanswer : l.answer m = some (r, l')) :
    l'.Recorded (record ++ [(r, m)]) := by
  obtain ⟨rest, -, rfl⟩ := answer_eq_some_iff.mp hanswer
  intro a ha r' hr'
  rcases List.mem_append.mp ha with ha | ha
  · exact List.mem_append_left _ (h a ha r' hr')
  · obtain rfl := List.mem_singleton.mp ha
    obtain rfl := Option.some.inj hr'
    simp

theorem Recorded.volunteer
    (h : l.Recorded record) :
    (l.volunteer m).Recorded record := by
  intro a ha r hr
  rcases List.mem_append.mp ha with ha | ha
  · exact h a ha r hr
  · obtain rfl := List.mem_singleton.mp ha
    cases hr

/-- What is read is in the record, and so is what is left. -/
theorem Recorded.receive
    (h : l.Recorded record)
    (hreceive : l.receive = some (a, l')) :
    l'.Recorded record ∧ ∀ r, a.answers = some r → (r, a.message) ∈ record := by
  obtain ⟨rest, harrived, rfl⟩ := receive_eq_some_iff.mp hreceive
  refine ⟨fun b hb => h b ?_, h a ?_⟩
  · rw [harrived]
    exact List.mem_cons_of_mem _ hb
  · rw [harrived]
    exact List.mem_cons_self ..

theorem Volunteers.answer
    (h : l.Volunteers p)
    (hanswer : l.answer m = some (r, l')) :
    l'.Volunteers p := by
  obtain ⟨rest, -, rfl⟩ := answer_eq_some_iff.mp hanswer
  intro a ha hnone
  rcases List.mem_append.mp ha with ha | ha
  · exact h a ha hnone
  · obtain rfl := List.mem_singleton.mp ha
    cases hnone

theorem Volunteers.volunteer
    (h : l.Volunteers p)
    (hm : p m) :
    (l.volunteer m).Volunteers p := by
  intro a ha hnone
  rcases List.mem_append.mp ha with ha | ha
  · exact h a ha hnone
  · obtain rfl := List.mem_singleton.mp ha
    exact hm

theorem Volunteers.receive
    (h : l.Volunteers p)
    (hreceive : l.receive = some (a, l')) :
    l'.Volunteers p ∧ (a.answers = none → p a.message) := by
  obtain ⟨rest, harrived, rfl⟩ := receive_eq_some_iff.mp hreceive
  refine ⟨fun b hb => h b ?_, h a ?_⟩
  · rw [harrived]
    exact List.mem_cons_of_mem _ hb
  · rw [harrived]
    exact List.mem_cons_self ..

end Records

end OrderedLink

/-- The links that have been opened, each under its number.  None is ever forgotten: an
answer can arrive on a link nobody reads any more. -/
abbrev Links (ρ : Type u) (μ : Type v) := List (OrderedLink ρ μ)

namespace Links

variable {ρ : Type u} {μ : Type v}

section Defs

def opened (links : Links ρ μ) : Links ρ μ :=
  links ++ [({} : OrderedLink ρ μ)]

def send (links : Links ρ μ) (c : Nat) (r : ρ) : Links ρ μ :=
  links.modify c (·.send r)

def answer (links : Links ρ μ) (c : Nat) (m : μ) : Option (ρ × Links ρ μ) :=
  (links[c]?.bind (·.answer m)).map fun x => (x.1, links.set c x.2)

def volunteer (links : Links ρ μ) (c : Nat) (m : μ) : Links ρ μ :=
  links.modify c (·.volunteer m)

def receive (links : Links ρ μ) (c : Nat) : Option (Arrival ρ μ × Links ρ μ) :=
  (links[c]?.bind (·.receive)).map fun x => (x.1, links.set c x.2)

/-- On the link `c` the answers to `rs` are owed. -/
def Owes (links : Links ρ μ) (c : Nat) (rs : List ρ) : Prop :=
  ∃ l, links[c]? = some l ∧ l.owed = rs

/-- Every answer on a link is in the record, and what else is there is of the kind
`p`. -/
def Honest (record : List (ρ × μ)) (p : μ → Prop) (links : Links ρ μ) : Prop :=
  ∀ l ∈ links, l.Recorded record ∧ l.Volunteers p

/-- The pending requests of all links. -/
def pending (links : Links ρ μ) : List ρ :=
  links.flatMap (·.pending)

end Defs

variable {links links' : Links ρ μ} {c d : Nat} {l l' : OrderedLink ρ μ}
variable {r : ρ} {rs : List ρ} {m : μ} {a : Arrival ρ μ}

theorem answer_cases
    (h : links.answer c m = some (r, links')) :
    ∃ l l', links[c]? = some l ∧ l.answer m = some (r, l') ∧
      links' = links.set c l' := by
  obtain ⟨⟨r', l'⟩, hx, heq⟩ := Option.map_eq_some_iff.mp h
  obtain ⟨l, hl, hanswer⟩ := Option.bind_eq_some_iff.mp hx
  obtain ⟨rfl, rfl⟩ := Prod.mk.inj heq
  exact ⟨l, l', hl, hanswer, rfl⟩

theorem receive_cases
    (h : links.receive c = some (a, links')) :
    ∃ l l', links[c]? = some l ∧ l.receive = some (a, l') ∧
      links' = links.set c l' := by
  obtain ⟨⟨a', l'⟩, hx, heq⟩ := Option.map_eq_some_iff.mp h
  obtain ⟨l, hl, hreceive⟩ := Option.bind_eq_some_iff.mp hx
  obtain ⟨rfl, rfl⟩ := Prod.mk.inj heq
  exact ⟨l, l', hl, hreceive, rfl⟩

section Owed

/-- On a new link nothing is owed. -/
theorem owes_opened :
    links.opened.Owes links.length [] :=
  ⟨{}, by simp [opened], rfl⟩

theorem Owes.send
    (h : links.Owes c rs) :
    (links.send c r).Owes c (rs ++ [r]) := by
  obtain ⟨l, hl, rfl⟩ := h
  exact ⟨l.send r, by simp [Links.send, hl], OrderedLink.owed_send⟩

/-- Answers given on any link leave what is owed. -/
theorem Owes.answer
    (h : links.Owes c rs)
    (hanswer : links.answer d m = some (r, links')) :
    links'.Owes c rs := by
  obtain ⟨k, k', hk, hkanswer, rfl⟩ := answer_cases hanswer
  obtain ⟨l, hl, rfl⟩ := h
  by_cases hcd : d = c
  · subst hcd
    obtain rfl : k = l := Option.some.inj (hk.symm.trans hl)
    exact ⟨k', by rw [List.getElem?_set_self (List.getElem?_eq_some_iff.mp hl).1],
      OrderedLink.owed_answer hkanswer⟩
  · exact ⟨l, by rw [List.getElem?_set_ne hcd, hl], rfl⟩

theorem Owes.volunteer
    (h : links.Owes c rs) :
    (links.volunteer d m).Owes c rs := by
  obtain ⟨l, hl, rfl⟩ := h
  by_cases hcd : d = c
  · subst hcd
    exact ⟨l.volunteer m, by simp [Links.volunteer, hl], OrderedLink.owed_volunteer⟩
  · exact ⟨l, by simp [Links.volunteer, hl, hcd], rfl⟩

/-- With one answer owed, a read takes that answer or a message nobody asked for. -/
theorem Owes.receive
    (h : links.Owes c [r])
    (hreceive : links.receive c = some (a, links')) :
    (a.answers = some r ∧ links'.Owes c []) ∨
      (a.answers = none ∧ links'.Owes c [r]) := by
  obtain ⟨k, k', hk, hkreceive, rfl⟩ := receive_cases hreceive
  have hlt := (List.getElem?_eq_some_iff.mp hk).1
  obtain ⟨l, hl, howed⟩ := h
  obtain rfl : k = l := Option.some.inj (hk.symm.trans hl)
  have hk' : (links.set c k')[c]? = some k' := List.getElem?_set_self hlt
  rcases OrderedLink.receive_of_owed_singleton howed hkreceive with
    ⟨ha, hnil⟩ | ⟨ha, hstill⟩
  · exact Or.inl ⟨ha, k', hk', hnil⟩
  · exact Or.inr ⟨ha, k', hk', hstill⟩

end Owed

section Records

variable {record : List (ρ × μ)} {p : μ → Prop}

theorem Honest.set
    (h : links.Honest record p)
    (hl : l'.Recorded record ∧ l'.Volunteers p) :
    Honest record p (links.set c l') := by
  intro l hmem
  rcases List.mem_or_eq_of_mem_set hmem with hmem | rfl
  · exact h l hmem
  · exact hl

theorem Honest.modify
    (h : links.Honest record p)
    {f : OrderedLink ρ μ → OrderedLink ρ μ}
    (hf : ∀ l, l.Recorded record ∧ l.Volunteers p →
      (f l).Recorded record ∧ (f l).Volunteers p) :
    Honest record p (links.modify c f) := by
  intro l hmem
  obtain ⟨i, hi⟩ := List.mem_iff_getElem?.mp hmem
  rw [List.getElem?_modify] at hi
  obtain ⟨k, hk, rfl⟩ := Option.map_eq_some_iff.mp hi
  have hold := h k (List.mem_of_getElem? hk)
  split
  · exact hf k hold
  · exact hold

theorem Honest.opened
    (h : links.Honest record p) :
    links.opened.Honest record p := by
  intro l hmem
  rcases List.mem_append.mp hmem with hmem | hmem
  · exact h l hmem
  · obtain rfl := List.mem_singleton.mp hmem
    exact ⟨fun _ ha => absurd ha List.not_mem_nil,
      fun _ ha => absurd ha List.not_mem_nil⟩

theorem Honest.send
    (h : links.Honest record p) :
    (links.send c r).Honest record p :=
  h.modify fun _ hl => ⟨hl.1.send, hl.2⟩

theorem Honest.answer
    (h : links.Honest record p)
    (hanswer : links.answer c m = some (r, links')) :
    links'.Honest (record ++ [(r, m)]) p := by
  obtain ⟨l, l', hl, hlanswer, rfl⟩ := answer_cases hanswer
  have hold := h l (List.mem_of_getElem? hl)
  have hmono : links.Honest (record ++ [(r, m)]) p := fun k hk =>
    ⟨(h k hk).1.mono (List.subset_append_left ..), (h k hk).2⟩
  exact hmono.set ⟨hold.1.answer hlanswer, hold.2.answer hlanswer⟩

theorem Honest.volunteer
    (h : links.Honest record p)
    (hm : p m) :
    (links.volunteer c m).Honest record p :=
  h.modify fun _ hl => ⟨hl.1.volunteer, hl.2.volunteer hm⟩

/-- What is read is an answer of the record or of the kind `p`. -/
theorem Honest.receive
    (h : links.Honest record p)
    (hreceive : links.receive c = some (a, links')) :
    links'.Honest record p ∧ (a.answers = none → p a.message) ∧
      ∀ r, a.answers = some r → (r, a.message) ∈ record := by
  obtain ⟨l, l', hl, hlreceive, rfl⟩ := receive_cases hreceive
  have hold := h l (List.mem_of_getElem? hl)
  obtain ⟨hrecorded, hread⟩ := hold.1.receive hlreceive
  obtain ⟨hvolunteers, hunasked⟩ := hold.2.receive hlreceive
  exact ⟨h.set ⟨hrecorded, hvolunteers⟩, hunasked, hread⟩

end Records

section Counts

variable (p : ρ → Bool)

theorem countP_pending_set
    (l' : OrderedLink ρ μ)
    (hc : links[c]? = some l) :
    (pending (links.set c l')).countP p + l.pending.countP p =
      links.pending.countP p + l'.pending.countP p := by
  induction links generalizing c with
  | nil => simp at hc
  | cons k links ih =>
      cases c with
      | zero =>
          obtain rfl : k = l := by simpa using hc
          simp only [pending, List.set_cons_zero, List.flatMap_cons,
            List.countP_append]
          omega
      | succ c =>
          have htail := ih (c := c) (by simpa using hc)
          simp only [pending, List.set_cons_succ, List.flatMap_cons,
            List.countP_append] at htail ⊢
          omega

@[simp] theorem pending_opened :
    links.opened.pending = links.pending := by
  simp [opened, pending]

theorem countP_pending_modify
    (f : OrderedLink ρ μ → OrderedLink ρ μ) (n : Nat)
    (hf : ∀ l, (f l).pending.countP p ≤ l.pending.countP p + n) :
    (pending (links.modify c f)).countP p ≤ links.pending.countP p + n := by
  cases hc : links[c]? with
  | none =>
      rw [List.modify_eq_self (by simpa using hc)]
      omega
  | some l =>
      have hset := countP_pending_set p (f l) hc
      have hl := hf l
      rw [List.modify_eq_set_getElem?, hc]
      simp only [Option.map_eq_map, Option.map_some, Option.getD_some]
      omega

/-- Sending adds at most the request that is sent. -/
theorem countP_pending_send :
    (links.send c r).pending.countP p ≤ links.pending.countP p + (p r).toNat :=
  countP_pending_modify p _ _ fun l => by
    cases hp : p r <;> simp [OrderedLink.send, hp]

theorem countP_pending_volunteer :
    (links.volunteer c m).pending.countP p ≤ links.pending.countP p :=
  countP_pending_modify p _ 0 fun _ => Nat.le_refl _

/-- Answering takes the answered request off. -/
theorem countP_pending_answer
    (h : links.answer c m = some (r, links')) :
    links'.pending.countP p + (p r).toNat = links.pending.countP p := by
  obtain ⟨l, l', hl, hanswer, rfl⟩ := answer_cases h
  obtain ⟨rest, hpending, rfl⟩ := OrderedLink.answer_eq_some_iff.mp hanswer
  have hset := countP_pending_set p
    { pending := rest, arrived := l.arrived ++ [⟨some r, m⟩] } hl
  simp only [hpending, List.countP_cons] at hset
  cases hp : p r <;> simp [hp] at hset ⊢ <;> omega

theorem countP_pending_receive
    (h : links.receive c = some (a, links')) :
    links'.pending.countP p = links.pending.countP p := by
  obtain ⟨l, l', hl, hreceive, rfl⟩ := receive_cases h
  obtain ⟨rest, -, rfl⟩ := OrderedLink.receive_eq_some_iff.mp hreceive
  have hset := countP_pending_set p { l with arrived := rest } hl
  simp only at hset
  omega

end Counts

end Links
end CockatielEngine
