import Mathlib.Data.List.Basic

/-!
# Replies over an ordered byte channel

A server answers the requests it receives one at a time and in order, writing
the items of each reply to one stream.  The client reads the stream without
looking at who the items were written for.  Each item carries, as ghost data, the
request whose reply it belongs to.

The {lit}`owners` of a channel are the requests of the unread items followed by
the requests still to be answered.  The server can only extend the stream; it
never changes whose item comes next.  Hence a nonempty read after sending a fresh
request belongs to that request exactly when the channel was quiet before.

Main results:

- Theorem {lit}`ReplyChannel.owners_writes_head?`: server activity keeps the
  owner of the next item.
- Theorem {lit}`ReplyChannel.read_owned_iff`: the pairing law.
- Theorem {lit}`ReplyChannel.quiet_send_reply`: a whole reply to a request sent on
  a quiet channel is all there is to read.
-/

namespace FrigateXdna
namespace Library

/-- Items written but not read, each with the request it answers, and the
requests not yet fully answered, oldest first. -/
structure ReplyChannel (ρ β : Type*) where
  pending : List ρ
  unread : List (β × ρ)

/-- One item written by the server; the last item of a reply completes it. -/
structure ServerWrite (β : Type*) where
  item : β
  last : Bool

namespace ReplyChannel

variable {ρ β : Type*}

/-- The channel before the first request. -/
def empty : ReplyChannel ρ β where
  pending := []
  unread := []

/-- Requests with something still to come out of the stream, in stream order. -/
def owners (c : ReplyChannel ρ β) : List ρ :=
  c.unread.map Prod.snd ++ c.pending

/-- Nothing of an earlier request is left on the channel. -/
def quiet (c : ReplyChannel ρ β) : Bool :=
  c.pending.isEmpty && c.unread.isEmpty

/-- Hand a request to the server. -/
def send (c : ReplyChannel ρ β) (r : ρ) : ReplyChannel ρ β :=
  { c with pending := c.pending ++ [r] }

/-- The server writes one item of the reply to its oldest request; without a
request it has nothing to say. -/
def write (c : ReplyChannel ρ β) (w : ServerWrite β) : ReplyChannel ρ β :=
  match c.pending with
  | [] => c
  | r :: rest =>
      { pending := if w.last then rest else r :: rest
        unread := c.unread ++ [(w.item, r)] }

/-- A stretch of server activity. -/
def writes (c : ReplyChannel ρ β) (ws : List (ServerWrite β)) : ReplyChannel ρ β :=
  ws.foldl write c

/-- The client takes items off the stream. -/
def drop (c : ReplyChannel ρ β) (n : Nat) : ReplyChannel ρ β :=
  { c with unread := c.unread.drop n }

/-- The writes that make up one whole reply. -/
def reply : List β → List (ServerWrite β)
  | [] => []
  | [x] => [⟨x, true⟩]
  | x :: y :: rest => ⟨x, false⟩ :: reply (y :: rest)

@[simp]
theorem owners_empty : (empty : ReplyChannel ρ β).owners = [] :=
  rfl

@[simp]
theorem owners_send (c : ReplyChannel ρ β) (r : ρ) :
    (c.send r).owners = c.owners ++ [r] := by
  simp [send, owners]

/-- One server write either changes nothing or repeats the oldest pending
request at the end of the unread part. -/
theorem owners_write (c : ReplyChannel ρ β) (w : ServerWrite β) :
    (c.write w).owners = c.owners ∨
      ∃ r rest, c.pending = r :: rest ∧
        (c.write w).owners = c.unread.map Prod.snd ++ r :: r :: rest := by
  cases hp : c.pending with
  | nil => left; simp [write, hp]
  | cons r rest =>
      cases hl : w.last with
      | true => left; simp [write, hp, hl, owners]
      | false => right; exact ⟨r, rest, rfl, by simp [write, hp, hl, owners]⟩

/-- A server write keeps the owner of the next item. -/
theorem owners_write_head? (c : ReplyChannel ρ β) (w : ServerWrite β) :
    (c.write w).owners.head? = c.owners.head? := by
  rcases c.owners_write w with h | ⟨r, rest, hp, h⟩
  · rw [h]
  · rw [h, owners, hp]
    cases c.unread <;> simp

/-- A server write brings in no new owner. -/
theorem mem_owners_of_write {c : ReplyChannel ρ β} {w : ServerWrite β} {x : ρ}
    (hx : x ∈ (c.write w).owners) : x ∈ c.owners := by
  rcases c.owners_write w with h | ⟨r, rest, hp, h⟩
  · rwa [h] at hx
  · rw [h] at hx
    simp only [List.mem_append, List.mem_cons] at hx
    simp only [owners, hp, List.mem_append, List.mem_cons]
    tauto

/-- Server activity keeps the owner of the next item. -/
theorem owners_writes_head? (c : ReplyChannel ρ β) (ws : List (ServerWrite β)) :
    (c.writes ws).owners.head? = c.owners.head? := by
  induction ws generalizing c with
  | nil => rfl
  | cons w ws ih =>
      rw [writes, List.foldl_cons, ← writes, ih, owners_write_head?]

/-- Server activity brings in no new owner. -/
theorem mem_owners_of_writes {c : ReplyChannel ρ β} {ws : List (ServerWrite β)}
    {x : ρ} (hx : x ∈ (c.writes ws).owners) : x ∈ c.owners := by
  induction ws generalizing c with
  | nil => exact hx
  | cons w ws ih =>
      rw [writes, List.foldl_cons, ← writes] at hx
      exact mem_owners_of_write (ih hx)

/-- Reading brings in no new owner. -/
theorem mem_owners_of_drop {c : ReplyChannel ρ β} {n : Nat} {x : ρ}
    (hx : x ∈ (c.drop n).owners) : x ∈ c.owners := by
  simp only [drop, owners, List.mem_append, List.mem_map] at hx ⊢
  rcases hx with ⟨y, hy, rfl⟩ | hx
  · exact Or.inl ⟨y, List.mem_of_mem_drop hy, rfl⟩
  · exact Or.inr hx

/-- The owner of the first unread item heads the owners. -/
theorem head_owner_of_unread {c : ReplyChannel ρ β} {y : β × ρ} {ys : List (β × ρ)}
    (h : c.unread = y :: ys) : c.owners.head? = some y.2 := by
  simp [owners, h]

/-- **The pairing law.**  Send a fresh request, let the server do anything, and
take a nonempty batch off the stream: the batch was written for that request
exactly when the channel was quiet before the request was sent. -/
theorem read_owned_iff {c : ReplyChannel ρ β} {r : ρ} (hfresh : r ∉ c.owners)
    (ws : List (ServerWrite β)) {n : Nat} (hn : 0 < n)
    (havail : n ≤ ((c.send r).writes ws).unread.length) :
    (∀ y ∈ ((c.send r).writes ws).unread.take n, y.2 = r) ↔ c.owners = [] := by
  set d := (c.send r).writes ws with hd
  have hhead : d.owners.head? = (c.owners ++ [r]).head? := by
    rw [hd, owners_writes_head?, owners_send]
  constructor
  · intro hall
    by_contra hne
    obtain ⟨o, os, ho⟩ := List.exists_cons_of_ne_nil hne
    obtain ⟨y, ys, hy⟩ : ∃ y ys, d.unread = y :: ys :=
      List.exists_cons_of_length_pos (Nat.lt_of_lt_of_le hn havail)
    have hfirst : y.2 = o := by
      have := head_owner_of_unread hy
      rw [hhead, ho] at this
      simpa using this.symm
    have hmem : y ∈ d.unread.take n := by
      rw [hy, ← Nat.succ_pred_eq_of_pos hn]
      simp
    have hro : o = r := hfirst.symm.trans (hall y hmem)
    exact hfresh (by simp [ho, hro])
  · intro hquiet y hy
    have hmem : y.2 ∈ d.owners := by
      have : y.2 ∈ d.unread.map Prod.snd :=
        List.mem_map_of_mem (List.mem_of_mem_take hy)
      exact List.mem_append_left _ this
    have := mem_owners_of_writes (hd ▸ hmem)
    simpa [hquiet] using this

/-- A whole reply answers the oldest request and nothing else. -/
theorem writes_reply {c : ReplyChannel ρ β} {r : ρ} {rest : List ρ}
    (hp : c.pending = r :: rest) {items : List β} (hne : items ≠ []) :
    c.writes (reply items) =
      { pending := rest, unread := c.unread ++ items.map fun x => (x, r) } := by
  induction items generalizing c with
  | nil => contradiction
  | cons x items ih =>
      cases items with
      | nil => simp [reply, writes, write, hp]
      | cons y items =>
          have hstep : (c.write ⟨x, false⟩).pending = r :: rest := by
            simp [write, hp]
          rw [reply, writes, List.foldl_cons, ← writes, ih hstep (by simp)]
          simp [write, hp]

/-- On a quiet channel, a request and its whole reply leave exactly the reply to
be read. -/
theorem quiet_send_reply {c : ReplyChannel ρ β} (hc : c.owners = []) (r : ρ)
    {items : List β} (hne : items ≠ []) :
    (c.send r).writes (reply items) =
      { pending := [], unread := items.map fun x => (x, r) } := by
  obtain ⟨hu, hp⟩ := List.append_eq_nil_iff.mp hc
  have hpending : (c.send r).pending = r :: [] := by simp [send, hp]
  rw [writes_reply hpending hne]
  have : c.unread = [] := by simpa using hu
  simp [send, this]

end ReplyChannel
end Library
end FrigateXdna
