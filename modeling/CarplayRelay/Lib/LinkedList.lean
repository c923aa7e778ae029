import Mathlib.Data.List.Find
import Mathlib.Data.List.Nodup
import Mathlib.Logic.Function.Basic

/-!
# Singly linked lists in memory

The elements of a list are blocks of memory at addresses `P`, each with a `next` field; a variable
holds the address of the first. Blocks are put in front, looked for from the front, and removed
through a pointer to the link that leads to them. `l.Holds ps` says that the blocks `ps` are on the
list, in this order.

* `holds_push`, `find_holds`, `unlink_holds`: the three operations on a list that holds `ps` are
  those on `ps`, and a walk ends after as many blocks as there are.
* `find_entries`, `unlink_entries`: the same where the blocks belong to entries.
-/

namespace LinkedList

/-- A place in memory that leads to a block: the variable, or the `next` field of a block. -/
inductive Link (P : Type*)
  | head
  | next (p : P)
  deriving DecidableEq, Repr

/-- The variable and the `next` fields. -/
structure Links (P : Type*) where
  head : Option P := none
  next : P → Option P := fun _ => none

variable {P : Type*}

/-- The blocks from `start` on are `ps`. -/
def Chain (next : P → Option P) : Option P → List P → Prop
  | start, [] => start = none
  | start, p :: ps => start = some p ∧ Chain next (next p) ps

theorem Chain.unique {next : P → Option P} {start : Option P} {ps qs : List P}
    (hp : Chain next start ps) (hq : Chain next start qs) : ps = qs := by
  induction ps generalizing start qs with
  | nil =>
    cases qs with
    | nil => rfl
    | cons q qs => cases hp.symm.trans hq.1
  | cons p ps ih =>
    cases qs with
    | nil => cases hp.1.symm.trans hq
    | cons q qs =>
      cases hp.1.symm.trans hq.1
      rw [ih hp.2 hq.2]

theorem Chain.of_mem {next : P → Option P} {start : Option P} {ps : List P} {p : P}
    (h : Chain next start ps) (hp : p ∈ ps) :
    ∃ qs, Chain next (some p) qs ∧ qs.length ≤ ps.length := by
  induction ps generalizing start with
  | nil => cases hp
  | cons q ps ih =>
    rcases List.mem_cons.1 hp with rfl | hp
    · exact ⟨p :: ps, ⟨rfl, h.2⟩, Nat.le_refl _⟩
    · obtain ⟨qs, hqs, hle⟩ := ih h.2 hp
      exact ⟨qs, hqs, Nat.le_trans hle (Nat.le_succ _)⟩

/-- **No block is on a list twice**: the list would not end. -/
theorem Chain.nodup {next : P → Option P} {start : Option P} {ps : List P}
    (h : Chain next start ps) : ps.Nodup := by
  induction ps generalizing start with
  | nil => exact List.nodup_nil
  | cons p ps ih =>
    refine List.nodup_cons.2 ⟨?_, ih h.2⟩
    intro hp
    obtain ⟨qs, hqs, hle⟩ := Chain.of_mem h.2 hp
    have hself : Chain next (some p) (p :: ps) := ⟨rfl, h.2⟩
    rw [Chain.unique hqs hself, List.length_cons] at hle
    omega

theorem Chain.congr {next next' : P → Option P} {start : Option P} {ps : List P}
    (h : Chain next start ps) (hsame : ∀ p ∈ ps, next' p = next p) : Chain next' start ps := by
  induction ps generalizing start with
  | nil => exact h
  | cons p ps ih =>
    refine ⟨h.1, ?_⟩
    rw [hsame p List.mem_cons_self]
    exact ih h.2 fun q hq => hsame q (List.mem_cons_of_mem p hq)

namespace Links

/-- The blocks on the list. -/
def Holds (l : Links P) (ps : List P) : Prop := Chain l.next l.head ps

theorem Holds.nodup {l : Links P} {ps : List P} (h : l.Holds ps) : ps.Nodup := Chain.nodup h

theorem Holds.unique {l : Links P} {ps qs : List P} (hp : l.Holds ps) (hq : l.Holds qs) : ps = qs :=
  Chain.unique hp hq

/-- The first block that passes the test, looked for among `bound` blocks: the outer `none` is a
walk that has not ended by then. -/
def findFrom (l : Links P) (test : P → Bool) : Nat → Option P → Option (Option P)
  | _, none => some none
  | 0, some _ => none
  | bound + 1, some p => if test p then some (some p) else l.findFrom test bound (l.next p)

def find (l : Links P) (test : P → Bool) (bound : Nat) : Option (Option P) :=
  l.findFrom test bound l.head

def get (l : Links P) : Link P → Option P
  | .head => l.head
  | .next p => l.next p

variable [DecidableEq P]

def set (l : Links P) : Link P → Option P → Links P
  | .head, v => { l with head := v }
  | .next p, v => { l with next := Function.update l.next p v }

/-- Puts a block in front. -/
def push (l : Links P) (p : P) : Links P :=
  (l.set (.next p) l.head).set .head (some p)

/-- Follows the links from `link` on and has the one that leads to `p` lead to the next block. -/
def unlinkFrom (l : Links P) (p : P) : Nat → Link P → Option (Links P)
  | 0, link => if l.get link = none then some l else none
  | bound + 1, link =>
    match l.get link with
    | none => some l
    | some q => if q = p then some (l.set link (l.next p)) else l.unlinkFrom p bound (.next q)

def unlink (l : Links P) (p : P) (bound : Nat) : Option (Links P) := l.unlinkFrom p bound .head

section
variable {l : Links P} {ps : List P} {p : P} {test : P → Bool} {bound : Nat}

omit [DecidableEq P] in
theorem findFrom_chain {start : Option P} (h : Chain l.next start ps) (hbound : ps.length ≤ bound) :
    l.findFrom test bound start = some (ps.find? test) := by
  induction ps generalizing start bound with
  | nil =>
    cases h
    cases bound <;> rfl
  | cons p ps ih =>
    cases h.1
    obtain ⟨bound, rfl⟩ : ∃ b, bound = b + 1 :=
      ⟨bound - 1, by rw [List.length_cons] at hbound; omega⟩
    rw [findFrom, List.find?_cons]
    cases htest : test p with
    | true => rfl
    | false => exact ih h.2 (by simpa using hbound)

omit [DecidableEq P] in
/-- **A search finds the first block on the list that passes the test.** -/
theorem find_holds (h : l.Holds ps) (hbound : ps.length ≤ bound) :
    l.find test bound = some (ps.find? test) :=
  findFrom_chain h hbound

/-- **A block that is not on the list is put in front.** -/
theorem holds_push (h : l.Holds ps) (hp : p ∉ ps) : (l.push p).Holds (p :: ps) := by
  refine ⟨rfl, ?_⟩
  have hnext : (l.push p).next p = l.head := by
    show Function.update l.next p l.head p = l.head
    exact Function.update_self p l.head l.next
  rw [hnext]
  apply Chain.congr h
  intro q hq
  exact Function.update_of_ne (ne_of_mem_of_not_mem hq hp) _ _

theorem get_set_self (l : Links P) (link : Link P) (v : Option P) :
    (l.set link v).get link = v := by
  cases link with
  | head => rfl
  | next q => exact Function.update_self q v l.next

theorem get_set_of_ne {link link' : Link P} (h : link' ≠ link) (v : Option P) :
    (l.set link v).get link' = l.get link' := by
  cases link with
  | head =>
    cases link' with
    | head => exact absurd rfl h
    | next q => rfl
  | next p =>
    cases link' with
    | head => rfl
    | next q => exact Function.update_of_ne (fun heq => h (congrArg Link.next heq)) _ _

/-- A walk from a link off the chain takes `p` out of the chain behind it, and leaves the links
before it alone. -/
theorem unlinkFrom_chain {link : Link P} (h : Chain l.next (l.get link) ps)
    (hlink : ∀ q ∈ ps, link ≠ .next q) (hbound : ps.length ≤ bound) :
    ∃ l', l.unlinkFrom p bound link = some l' ∧ Chain l'.next (l'.get link) (ps.erase p) ∧
      ∀ link', link' ≠ link → (∀ q ∈ ps, link' ≠ .next q) → l'.get link' = l.get link' := by
  induction ps generalizing link bound with
  | nil =>
    have hnone : l.get link = none := h
    refine ⟨l, ?_, h, fun _ _ _ => rfl⟩
    cases bound with
    | zero => exact if_pos hnone
    | succ bound => rw [unlinkFrom, hnone]
  | cons q ps ih =>
    obtain ⟨bound, rfl⟩ : ∃ b, bound = b + 1 :=
      ⟨bound - 1, by rw [List.length_cons] at hbound; omega⟩
    have hnodup := List.nodup_cons.1 h.nodup
    have hne : link ≠ .next q := hlink q List.mem_cons_self
    rw [unlinkFrom, h.1]
    dsimp only
    by_cases hqp : q = p
    · subst hqp
      refine ⟨l.set link (l.next q), if_pos rfl, ?_, ?_⟩
      · rw [List.erase_cons_head, get_set_self]
        apply h.2.congr
        intro r hr
        exact get_set_of_ne (hlink r (List.mem_cons_of_mem q hr)).symm _
      · intro link' hlink' _
        exact get_set_of_ne hlink' _
    · rw [if_neg hqp]
      have hchain : Chain l.next (l.get (.next q)) ps := h.2
      have hps : ps.length ≤ bound := by simpa using hbound
      obtain ⟨l', hl', hchain, hsame⟩ :=
        ih hchain (fun r hr heq => hnodup.1 (Link.next.inj heq ▸ hr)) hps
      refine ⟨l', hl', ?_, ?_⟩
      · rw [List.erase_cons_tail (by simpa using hqp)]
        refine ⟨?_, hchain⟩
        rw [hsame link hne fun r hr => hlink r (List.mem_cons_of_mem q hr), h.1]
      · intro link' _ hlink'
        exact hsame link' (hlink' q List.mem_cons_self)
          fun r hr => hlink' r (List.mem_cons_of_mem q hr)

/-- **A block is removed, the others stay.** -/
theorem unlink_holds (h : l.Holds ps) (hbound : ps.length ≤ bound) :
    ∃ l', l.unlink p bound = some l' ∧ l'.Holds (ps.erase p) := by
  have hhead : Chain l.next (l.get .head) ps := h
  obtain ⟨l', hl', hchain, -⟩ :=
    unlinkFrom_chain (p := p) hhead (fun _ _ => nofun) hbound
  exact ⟨l', hl', hchain⟩

end

/-! ## Entries at addresses -/

section
variable {α : Type*} {l : Links P} {xs : List α} {f : α → P} {bound : Nat}

omit [DecidableEq P] in
/-- **A search among entries.** -/
theorem find_entries {test : P → Bool} {q : α → Bool} (h : l.Holds (xs.map f))
    (hbound : xs.length ≤ bound) (htest : ∀ x ∈ xs, test (f x) = q x) :
    l.find test bound = some ((xs.find? q).map f) := by
  rw [find_holds h (by rwa [List.length_map]), List.find?_map]
  exact congrArg (fun x => some (x.map f)) (List.find?_congr htest)

theorem erase_entries {q : α → Bool} {p : P} (hnodup : (xs.map f).Nodup)
    (hq : ∀ x ∈ xs, q x = true ↔ f x ≠ p) : (xs.map f).erase p = (xs.filter q).map f := by
  rw [hnodup.erase_eq_filter, List.filter_map]
  refine congrArg (List.map f) (List.filter_congr fun x hx => ?_)
  rw [Bool.eq_iff_iff, hq x hx]
  exact bne_iff_ne

/-- **The entry at an address is removed.** -/
theorem unlink_entries {q : α → Bool} {p : P} (h : l.Holds (xs.map f)) (hbound : xs.length ≤ bound)
    (hq : ∀ x ∈ xs, q x = true ↔ f x ≠ p) :
    ∃ l', l.unlink p bound = some l' ∧ l'.Holds ((xs.filter q).map f) := by
  rw [← erase_entries h.nodup hq]
  exact unlink_holds h (by rwa [List.length_map])

end

end Links

end LinkedList
