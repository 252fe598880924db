import Mathlib.Algebra.Order.Group.Multiset
import Mathlib.Tactic.Abel
import DistributedMathArh.Lib.Transition

/-! Queues that hold a message until it is acknowledged, and a consumer that acknowledges a message
when it has handled it: no message is lost, and only a lost acknowledgement makes one come
again. -/

namespace DistributedMathArh.Acknowledged

open Transition

/-- A queue of a broker and its one channel.  `held` are the messages the queue still answers for,
`outstanding` those of them that were delivered, by their tags. -/
structure AckQueue (Q M : Type) where
  held : Q → Multiset M
  outstanding : Q → Nat → Option M
  publish : Q → M → Q
  Delivers : Q → Nat → M → Q → Prop
  ack : Q → Nat → Q
  requeue : Q → Q
  held_publish : ∀ q m, held (publish q m) = m ::ₘ held q
  outstanding_publish : ∀ q m, outstanding (publish q m) = outstanding q
  held_delivers : ∀ {q tag m q'}, Delivers q tag m q' → held q' = held q
  fresh_delivers : ∀ {q tag m q'}, Delivers q tag m q' → outstanding q tag = none
  outstanding_delivers : ∀ {q tag m q'}, Delivers q tag m q' →
    outstanding q' = Function.update (outstanding q) tag (some m)
  held_ack : ∀ {q tag m}, outstanding q tag = some m → held q = m ::ₘ held (ack q tag)
  outstanding_ack : ∀ q tag, outstanding (ack q tag) = Function.update (outstanding q) tag none
  held_requeue : ∀ q, held (requeue q) = held q
  outstanding_requeue : ∀ q tag, outstanding (requeue q) tag = none

variable {Q M R : Type}

/-- A queue and its consumer: what was delivered and not handled yet, the acknowledgements on their
way, and what was handled so far.  `repeated` are the messages that were handled although the queue
does not know it: their acknowledgements were lost. -/
structure Link (Q M R : Type) where
  queue : Q
  inbox : List (Nat × M)
  acks : List Nat
  handled : List (M × R)
  repeated : Multiset M

inductive Action (M R : Type)
  | publish (m : M)
  | deliver (tag : Nat) (m : M)
  | handle (r : R)
  | settle
  | lose

def Action.published : Action M R → Option M
  | .publish m => some m
  | _ => none

namespace Link

variable (B : AckQueue Q M) (ok : M → R → Prop)

def start (q : Q) : Link Q M R := ⟨q, [], [], [], 0⟩

def pending (l : Link Q M R) : Multiset M := ↑(l.acks.filterMap (B.outstanding l.queue))

abbrev publish (l : Link Q M R) (m : M) : Link Q M R := { l with queue := B.publish l.queue m }

abbrev deliver (l : Link Q M R) (tag : Nat) (m : M) (q : Q) : Link Q M R :=
  { l with queue := q, inbox := l.inbox ++ [(tag, m)] }

abbrev handle (l : Link Q M R) (tag : Nat) (m : M) (rest : List (Nat × M)) (r : R) : Link Q M R :=
  { l with inbox := rest, acks := l.acks ++ [tag], handled := l.handled ++ [(m, r)] }

abbrev settle (l : Link Q M R) (tag : Nat) (rest : List Nat) : Link Q M R :=
  { l with queue := B.ack l.queue tag, acks := rest }

abbrev lose (l : Link Q M R) : Link Q M R where
  queue := B.requeue l.queue
  inbox := []
  acks := []
  handled := l.handled
  repeated := l.repeated + l.pending B

inductive Step (l : Link Q M R) : Action M R → Link Q M R → Prop
  | publish {m : M} : Step l (.publish m) (l.publish B m)
  | deliver {tag : Nat} {m : M} {q : Q} : B.Delivers l.queue tag m q →
    Step l (.deliver tag m) (l.deliver tag m q)
  | handle {tag : Nat} {m : M} {rest : List (Nat × M)} {r : R} :
    l.inbox = (tag, m) :: rest → ok m r → Step l (.handle r) (l.handle tag m rest r)
  | settle {tag : Nat} {rest : List Nat} : l.acks = tag :: rest →
    Step l .settle (l.settle B tag rest)
  | lose : Step l .lose (l.lose B)

structure Accounted (published : List M) (l : Link Q M R) : Prop where
  tags : (l.inbox.map Prod.fst ++ l.acks).Nodup
  inbox : ∀ x ∈ l.inbox, B.outstanding l.queue x.1 = some x.2
  acks : ∀ tag ∈ l.acks, ∃ m, B.outstanding l.queue tag = some m
  conserved : B.held l.queue + ↑(l.handled.map Prod.fst) = ↑published + l.pending B + l.repeated
  handled : ∀ x ∈ l.handled, ok x.1 x.2

variable {B ok} {published : List M} {l l' : Link Q M R}

theorem accounted_start {q : Q} (hq : B.held q = 0) : Accounted B ok [] (start q) where
  tags := List.nodup_nil
  inbox _ h := by cases h
  acks _ h := by cases h
  conserved := by simp [start, pending, hq]
  handled _ h := by cases h

theorem filterMap_update {f : Nat → Option M} {tags : List Nat} {tag : Nat} (h : tag ∉ tags)
    (o : Option M) : tags.filterMap (Function.update f tag o) = tags.filterMap f := by
  apply List.filterMap_congr
  intro x hx
  apply Function.update_of_ne
  rintro rfl
  exact h hx

namespace Accounted

theorem publish (h : Accounted B ok published l) (m : M) :
    Accounted B ok (published ++ [m]) (l.publish B m) where
  tags := h.tags
  inbox x hx := by
    rw [B.outstanding_publish]
    exact h.inbox x hx
  acks tag htag := by
    rw [B.outstanding_publish]
    exact h.acks tag htag
  conserved := by
    have hpending : (l.publish B m).pending B = l.pending B := by
      simp only [pending, B.outstanding_publish]
    rw [B.held_publish, hpending, Multiset.cons_add, h.conserved, ← Multiset.singleton_add,
      ← Multiset.coe_add, Multiset.coe_singleton]
    abel
  handled := h.handled

theorem deliver (h : Accounted B ok published l) {tag : Nat} {m : M} {q : Q}
    (hq : B.Delivers l.queue tag m q) : Accounted B ok published (l.deliver tag m q) := by
  have hfresh := B.fresh_delivers hq
  have hinbox : tag ∉ l.inbox.map Prod.fst := by
    intro hmem
    obtain ⟨x, hx, rfl⟩ := List.mem_map.mp hmem
    cases hfresh.symm.trans (h.inbox x hx)
  have hacks : tag ∉ l.acks := by
    intro hmem
    obtain ⟨m', hm'⟩ := h.acks tag hmem
    cases hfresh.symm.trans hm'
  have hold : ∀ {t m'}, B.outstanding l.queue t = some m' → B.outstanding q t = some m' := by
    intro t m' ht
    rw [B.outstanding_delivers hq, Function.update_of_ne, ht]
    rintro rfl
    cases hfresh.symm.trans ht
  refine ⟨?_, ?_, ?_, ?_, h.handled⟩
  · have hnodup : (tag :: (l.inbox.map Prod.fst ++ l.acks)).Nodup :=
      List.nodup_cons.mpr ⟨fun hmem => (List.mem_append.mp hmem).elim hinbox hacks, h.tags⟩
    rw [List.map_append, List.append_assoc]
    exact (List.perm_middle (a := tag)).nodup_iff.mpr hnodup
  · intro x hx
    cases List.mem_append.mp hx with
    | inl hx => exact hold (h.inbox x hx)
    | inr hx =>
      cases List.mem_singleton.mp hx
      rw [B.outstanding_delivers hq, Function.update_self]
  · exact fun t ht => (h.acks t ht).imp fun _ => hold
  · rw [B.held_delivers hq, h.conserved, pending, pending, B.outstanding_delivers hq,
      filterMap_update hacks]

theorem handle (h : Accounted B ok published l) {tag : Nat} {m : M} {rest : List (Nat × M)} {r : R}
    (hl : l.inbox = (tag, m) :: rest) (hr : ok m r) :
    Accounted B ok published (l.handle tag m rest r) := by
  have htag : B.outstanding l.queue tag = some m := h.inbox (tag, m) (hl ▸ List.mem_cons_self)
  refine ⟨?_, ?_, ?_, ?_, ?_⟩
  · have htags := h.tags
    rw [hl, List.map_cons, List.cons_append, ← List.perm_append_singleton tag _ |>.nodup_iff,
      List.append_assoc] at htags
    exact htags
  · exact fun x hx => h.inbox x (hl ▸ List.mem_cons_of_mem _ hx)
  · intro t ht
    cases List.mem_append.mp ht with
    | inl ht => exact h.acks t ht
    | inr ht => exact ⟨m, List.mem_singleton.mp ht ▸ htag⟩
  · have hpending : (l.handle tag m rest r).pending B = l.pending B + {m} := by
      simp only [pending, List.filterMap_append, List.filterMap_cons_some htag,
        List.filterMap_nil, ← Multiset.coe_add, Multiset.coe_singleton]
    rw [hpending, List.map_append, ← Multiset.coe_add, ← add_assoc, h.conserved]
    simp only [List.map_cons, List.map_nil, Multiset.coe_singleton]
    abel
  · intro x hx
    cases List.mem_append.mp hx with
    | inl hx => exact h.handled x hx
    | inr hx =>
      cases List.mem_singleton.mp hx
      exact hr

theorem settle (h : Accounted B ok published l) {tag : Nat} {rest : List Nat}
    (hl : l.acks = tag :: rest) :
    Accounted B ok published (l.settle B tag rest) := by
  obtain ⟨m, htag⟩ := h.acks tag (hl ▸ List.mem_cons_self)
  have htags := h.tags
  rw [hl] at htags
  have hrest : tag ∉ rest := (List.nodup_cons.mp htags.of_append_right).1
  have hinbox : tag ∉ l.inbox.map Prod.fst := fun hmem =>
    List.disjoint_of_nodup_append htags hmem List.mem_cons_self
  have hother : ∀ {t}, t ≠ tag → B.outstanding (B.ack l.queue tag) t = B.outstanding l.queue t := by
    intro t ht
    rw [B.outstanding_ack, Function.update_of_ne ht]
  refine ⟨?_, ?_, ?_, ?_, h.handled⟩
  · exact (List.perm_middle.nodup_iff.mp htags).of_cons
  · intro x hx
    rw [hother fun hxt => hinbox (hxt ▸ List.mem_map_of_mem hx)]
    exact h.inbox x hx
  · intro t ht
    rw [hother fun htt => hrest (htt ▸ ht)]
    exact h.acks t (hl ▸ List.mem_cons_of_mem _ ht)
  · have hpending : l.pending B = m ::ₘ (l.settle B tag rest).pending B := by
      simp only [pending, hl, List.filterMap_cons_some htag, B.outstanding_ack,
        filterMap_update hrest, Multiset.cons_coe]
    have hconserved := h.conserved
    rw [hpending, B.held_ack htag, Multiset.cons_add, Multiset.add_cons, Multiset.cons_add]
      at hconserved
    exact (Multiset.cons_inj_right m).mp hconserved

theorem lose (h : Accounted B ok published l) : Accounted B ok published (l.lose B) where
  tags := List.nodup_nil
  inbox _ hx := by cases hx
  acks _ hx := by cases hx
  conserved := by
    rw [B.held_requeue, h.conserved]
    simp only [pending, List.filterMap_nil, Multiset.coe_nil]
    abel
  handled := h.handled

theorem step (h : Accounted B ok published l) {a : Action M R} (hstep : Step B ok l a l') :
    Accounted B ok (published ++ a.published.toList) l' := by
  cases hstep with
  | publish => exact h.publish _
  | deliver hq => exact (List.append_nil published).symm ▸ h.deliver hq
  | handle hl hr => exact (List.append_nil published).symm ▸ h.handle hl hr
  | settle hl => exact (List.append_nil published).symm ▸ h.settle hl
  | lose => exact (List.append_nil published).symm ▸ h.lose

end Accounted

theorem accounted_of_run {q : Q} (hq : B.held q = 0) {as : List (Action M R)}
    (run : Run (Step B ok) (start q) as l) :
    Accounted B ok (as.filterMap Action.published) l := by
  apply run.invariant_trace (I := fun as l => Accounted B ok (as.filterMap Action.published) l)
    (accounted_start hq)
  intro as l a l' h hstep
  rw [List.filterMap_append]
  have hsnoc : [a].filterMap Action.published = a.published.toList := by cases a <;> rfl
  exact hsnoc ▸ h.step hstep

namespace Accounted

theorem published_le (h : Accounted B ok published l) :
    (published : Multiset M) ≤ B.held l.queue + ↑(l.handled.map Prod.fst) := by
  rw [h.conserved, add_assoc]
  exact Multiset.le_add_right _ _

theorem count_le_held [DecidableEq M] (h : Accounted B ok published l) {m : M}
    (hm : ∀ r, ¬ ok m r) : published.count m ≤ (B.held l.queue).count m := by
  have hcount : (l.handled.map Prod.fst).count m = 0 := by
    rw [List.count_eq_zero, List.mem_map]
    rintro ⟨x, hx, rfl⟩
    exact hm _ (h.handled x hx)
  have hle := Multiset.count_le_of_le m h.published_le
  rwa [Multiset.count_add, Multiset.coe_count, Multiset.coe_count, hcount, add_zero] at hle

theorem mem_handled (h : Accounted B ok published l) (hq : B.held l.queue = 0) {m : M}
    (hm : m ∈ published) : ∃ r, (m, r) ∈ l.handled := by
  have hle := h.published_le
  rw [hq, zero_add, Multiset.coe_le] at hle
  obtain ⟨x, hx, rfl⟩ := List.mem_map.mp (hle.subset hm)
  exact ⟨x.2, hx⟩

theorem acks_of_held (h : Accounted B ok published l) (hq : B.held l.queue = 0) : l.acks = [] := by
  apply List.eq_nil_iff_forall_not_mem.mpr
  intro tag htag
  obtain ⟨m, hm⟩ := h.acks tag htag
  exact Multiset.cons_ne_zero ((B.held_ack hm).symm.trans hq)

theorem perm_of_held (h : Accounted B ok published l) (hq : B.held l.queue = 0)
    (hrepeated : l.repeated = 0) : (l.handled.map Prod.fst).Perm published := by
  have hconserved := h.conserved
  rw [hq, hrepeated, pending, h.acks_of_held hq, List.filterMap_nil, Multiset.coe_nil, zero_add,
    add_zero, add_zero] at hconserved
  exact Multiset.coe_eq_coe.mp hconserved

end Accounted

def Clean (l : Link Q M R) : Action M R → Prop
  | .lose => l.acks = []
  | _ => True

theorem repeated_of_clean {q : Q} {as : List (Action M R)}
    (run : Run (Guarded (Step B ok) Clean) (start q) as l) : l.repeated = 0 := by
  refine run.invariant (I := fun l => l.repeated = 0) ?_ rfl
  rintro l a l' hl ⟨hclean, hstep⟩
  cases hstep with
  | lose =>
    have hacks : l.acks = [] := hclean
    simp [pending, hacks, hl]
  | _ => exact hl

end Link

/-- A queue that delivers in the order of publication, with the tags `next, next + 1, …`. -/
structure Fifo (M : Type) where
  ready : List M
  unacked : List (Nat × M)
  next : Nat
  nodup : (unacked.map Prod.fst).Nodup
  fresh : ∀ x ∈ unacked, x.1 < next

namespace Fifo

def empty : Fifo M := ⟨[], [], 1, List.nodup_nil, fun _ h => by cases h⟩

def deliver (q : Fifo M) : Option ((Nat × M) × Fifo M) :=
  match q.ready with
  | [] => none
  | m :: rest => some ((q.next, m), {
      ready := rest
      unacked := (q.next, m) :: q.unacked
      next := q.next + 1
      nodup := by
        refine List.nodup_cons.mpr ⟨fun hmem => ?_, q.nodup⟩
        obtain ⟨x, hx, hxn⟩ := List.mem_map.mp hmem
        exact absurd (q.fresh x hx) (hxn ▸ Nat.lt_irrefl _)
      fresh := by
        intro x hx
        cases List.mem_cons.mp hx with
        | inl hx => exact hx ▸ Nat.lt_succ_self _
        | inr hx => exact (q.fresh x hx).trans (Nat.lt_succ_self _) })

def ack (q : Fifo M) (tag : Nat) : Fifo M where
  ready := q.ready
  unacked := q.unacked.filter fun x => x.1 ≠ tag
  next := q.next
  nodup := q.nodup.sublist (List.filter_sublist.map _)
  fresh x hx := q.fresh x (List.mem_of_mem_filter hx)

def requeue (q : Fifo M) : Fifo M where
  ready := (q.unacked.map Prod.snd).reverse ++ q.ready
  unacked := []
  next := 1
  nodup := List.nodup_nil
  fresh _ h := by cases h

theorem lookup_filter (l : List (Nat × M)) (tag t : Nat) :
    (l.filter fun x => x.1 ≠ tag).lookup t = if t = tag then none else l.lookup t := by
  induction l with
  | nil => simp
  | cons x l ih =>
    obtain ⟨k, m⟩ := x
    by_cases hk : k = tag
    · subst hk
      by_cases ht : t = k
      · simpa [ht] using ih
      · simpa [ht, List.lookup_cons, beq_false_of_ne ht] using ih
    · by_cases ht : t = k
      · subst ht
        simp [hk]
      · simpa [hk, List.lookup_cons, beq_false_of_ne ht] using ih

theorem map_filter {l : List (Nat × M)} (hl : (l.map Prod.fst).Nodup) {tag : Nat} {m : M}
    (h : l.lookup tag = some m) :
    (l.map Prod.snd : Multiset M) =
      m ::ₘ ((l.filter fun x => x.1 ≠ tag).map Prod.snd : List M) := by
  induction l with
  | nil => cases h
  | cons x l ih =>
    obtain ⟨k, y⟩ := x
    obtain ⟨hk, hl⟩ := List.nodup_cons.mp hl
    by_cases ht : tag = k
    · subst ht
      have hrest : (l.filter fun x => x.1 ≠ tag) = l := by
        apply List.filter_eq_self.mpr
        intro x hx
        have hne : x.1 ≠ tag := by
          rintro rfl
          exact hk (List.mem_map.mpr ⟨x, hx, rfl⟩)
        simpa using hne
      cases (List.lookup_cons_self.symm.trans h : some y = some m)
      rw [List.filter_cons_of_neg (by simp), hrest]
      rfl
    · have hlookup : l.lookup tag = some m := by
        rwa [List.lookup_cons, beq_false_of_ne ht] at h
      have hcons := ih hl hlookup
      simp only [ne_eq, List.map_cons, ← Multiset.cons_coe, hcons, Ne.symm ht, not_false_eq_true,
        decide_true, List.filter_cons_of_pos]
      exact Multiset.cons_swap y m _

def queue (M : Type) : AckQueue (Fifo M) M where
  held q := ↑(q.ready ++ q.unacked.map Prod.snd)
  outstanding q tag := q.unacked.lookup tag
  publish q m := { q with ready := q.ready ++ [m] }
  Delivers q tag m q' := q.deliver = some ((tag, m), q')
  ack := ack
  requeue := requeue
  held_publish q m := by
    simp only [List.append_assoc, ← Multiset.coe_add, List.singleton_append, ← Multiset.cons_coe,
      Multiset.add_cons]
  outstanding_publish _ _ := rfl
  held_delivers {q tag m q'} h := by
    unfold deliver at h
    split at h
    · cases h
    · rename_i hready
      cases h
      simp [hready]
  fresh_delivers {q tag m q'} h := by
    unfold deliver at h
    split at h
    · cases h
    · cases h
      rw [List.lookup_eq_none_iff]
      intro x hx
      simpa using (q.fresh x hx).ne'
  outstanding_delivers {q tag m q'} h := by
    unfold deliver at h
    split at h
    · cases h
    · cases h
      funext t
      by_cases ht : t = q.next
      · simp [ht]
      · simp [List.lookup_cons, beq_false_of_ne ht, Function.update_of_ne ht]
  held_ack {q tag m} h := by
    rw [← Multiset.coe_add, map_filter q.nodup h, Multiset.add_cons, Multiset.coe_add]
    rfl
  outstanding_ack q tag := by
    funext t
    simp only [ack, lookup_filter, Function.update_apply]
  held_requeue q := by
    simp only [requeue, List.map_nil, List.append_nil, ← Multiset.coe_add, Multiset.coe_reverse]
    exact add_comm _ _
  outstanding_requeue _ _ := rfl

end Fifo

end DistributedMathArh.Acknowledged
