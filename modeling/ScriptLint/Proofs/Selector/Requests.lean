import Mathlib.Data.List.Dedup
import ScriptLint.Proofs.Lint.Memory

/-!
A selector cache over any number of requests. `getOrCompile_cases` says what one request can do; from it
follows what every sequence of requests keeps (`Tidy`): the cache holds the patterns that were asked
for since it was last cleared and that compile, each once, with what it compiles to and a ticket of
its own. Tickets tell objects apart: two answers have the same one exactly if they are for the same
pattern with no clearing in between (`ticket_eq_iff`).
-/
namespace ScriptLint.SelectorCache

/-- What a cache can be asked to do. -/
inductive Request where
  | get (pattern : String)
  | clear
  deriving DecidableEq, Repr

/-- The cache after a request. -/
def serve (c : SelectorCache) : Request → SelectorCache
  | .get pattern => (c.getOrCompile pattern).2
  | .clear => c.clear

def serveAll (c : SelectorCache) (requests : List Request) : SelectorCache :=
  requests.foldl serve c

@[simp] theorem serveAll_nil (c : SelectorCache) : c.serveAll [] = c := rfl

@[simp] theorem serveAll_cons (c : SelectorCache) (r : Request) (requests : List Request) :
    c.serveAll (r :: requests) = (c.serve r).serveAll requests := rfl

@[simp] theorem serveAll_append (c : SelectorCache) (as bs : List Request) :
    c.serveAll (as ++ bs) = (c.serveAll as).serveAll bs := List.foldl_append

/-- Add a request to the patterns asked for since the last clearing. -/
def note (patterns : List String) : Request → List String
  | .get pattern => patterns ++ [pattern]
  | .clear => []

/-- The patterns asked for since the last clearing. -/
def sinceClear (requests : List Request) : List String := requests.foldl note []

variable {c next : SelectorCache} {pattern other : String} {compiled later : CompiledSelector}
  {patterns : List String} {ticket : Nat}

/-- What a request for a pattern can come to: it is in the cache, it does not compile, or it is
compiled and put into the cache with the next ticket. -/
inductive Served (c : SelectorCache) (pattern : String) :
    Except SelectorError CompiledSelector × SelectorCache → Prop
  | held {compiled : CompiledSelector} (found : c.entries.lookup pattern = some compiled) :
      Served c pattern (.ok compiled, c)
  | failed {error : SelectorError} (missing : c.entries.lookup pattern = none)
      (hc : Selector.compile pattern = .error error) : Served c pattern (.error error, c)
  | added {selector : Selector} (missing : c.entries.lookup pattern = none)
      (hc : Selector.compile pattern = .ok selector) :
      Served c pattern (.ok ⟨c.nextTicket, selector⟩,
        ⟨(pattern, ⟨c.nextTicket, selector⟩) :: c.entries, c.nextTicket + 1⟩)

theorem getOrCompile_cases (c : SelectorCache) (pattern : String) :
    Served c pattern (c.getOrCompile pattern) := by
  rw [getOrCompile]
  split
  · rename_i compiled found
    exact .held found
  · rename_i missing
    split
    · rename_i error hc
      exact .failed missing hc
    · rename_i selector hc
      exact .added missing hc

theorem mem_of_lookup (h : c.entries.lookup pattern = some compiled) :
    (pattern, compiled) ∈ c.entries := by
  obtain ⟨before, after, hentries, _⟩ := List.lookup_eq_some_iff.mp h
  rw [hentries]
  exact List.mem_append_right before List.mem_cons_self

theorem not_mem_keys_of_lookup (h : c.entries.lookup pattern = none) :
    pattern ∉ c.entries.map (·.1) := by
  intro hmem
  obtain ⟨entry, hentry, rfl⟩ := List.mem_map.mp hmem
  have := List.lookup_eq_none_iff.mp h entry hentry
  simp at this

/-- What holds of a cache that was asked for these patterns since it was last cleared. -/
structure Tidy (patterns : List String) (c : SelectorCache) : Prop where
  sound : c.Sound
  keys_nodup : (c.entries.map (·.1)).Nodup
  mem_keys_iff : ∀ p, p ∈ c.entries.map (·.1) ↔ p ∈ patterns ∧ (Selector.compile p).isOk = true
  tickets_nodup : (c.entries.map (·.2.ticket)).Nodup
  ticket_lt : ∀ e ∈ c.entries, e.2.ticket < c.nextTicket

theorem tidy_clear (c : SelectorCache) : Tidy [] c.clear :=
  ⟨sound_empty, .nil, by simp [clear], .nil, by simp [clear]⟩

theorem tidy_empty : Tidy [] empty := tidy_clear empty

/-- A sound cache answers as the compiler does, and stays sound. -/
theorem getOrCompile_spec (h : c.Sound) (pattern : String) :
    (c.getOrCompile pattern).1.map (·.selector) = Selector.compile pattern ∧
      (c.getOrCompile pattern).2.Sound := by
  cases hc : Selector.compile pattern with
  | error error =>
    rw [getOrCompile_of_compile_error h hc]
    exact ⟨rfl, h⟩
  | ok selector =>
    obtain ⟨compiled, next, hget, rfl, hnext⟩ := getOrCompile_of_compile_ok h hc
    rw [hget]
    exact ⟨rfl, hnext⟩

theorem Tidy.get (h : Tidy patterns c) (pattern : String) :
    Tidy (patterns ++ [pattern]) (c.getOrCompile pattern).2 := by
  have hsound := (getOrCompile_spec h.sound pattern).2
  have hserved := getOrCompile_cases c pattern
  generalize c.getOrCompile pattern = outcome at hserved hsound
  cases hserved with
  | held found =>
    have hkey : pattern ∈ patterns ∧ (Selector.compile pattern).isOk = true :=
      (h.mem_keys_iff pattern).mp (List.mem_map.mpr ⟨_, mem_of_lookup found, rfl⟩)
    refine { h with mem_keys_iff := fun p => ?_ }
    rw [h.mem_keys_iff, List.mem_append, List.mem_singleton]
    by_cases hp : p = pattern
    · simp [hp, hkey]
    · simp [hp]
  | failed missing hc =>
    have hfails : (Selector.compile pattern).isOk = false := by rw [hc]; rfl
    refine { h with mem_keys_iff := fun p => ?_ }
    rw [h.mem_keys_iff, List.mem_append, List.mem_singleton]
    by_cases hp : p = pattern
    · simp [hp, hfails]
    · simp [hp]
  | added missing hc =>
    have hcompiles : (Selector.compile pattern).isOk = true := by rw [hc]; rfl
    refine ⟨hsound, ?_, fun p => ?_, ?_, ?_⟩
    · exact List.nodup_cons.mpr ⟨not_mem_keys_of_lookup missing, h.keys_nodup⟩
    · rw [List.map_cons, List.mem_cons, h.mem_keys_iff, List.mem_append, List.mem_singleton]
      by_cases hp : p = pattern
      · simp [hp, hcompiles]
      · simp [hp]
    · refine List.nodup_cons.mpr ⟨fun hmem => ?_, h.tickets_nodup⟩
      obtain ⟨entry, hentry, hticket⟩ := List.mem_map.mp hmem
      exact absurd (h.ticket_lt entry hentry) (by simp only at hticket; omega)
    · intro entry hentry
      rcases List.mem_cons.mp hentry with rfl | hentry
      · exact Nat.lt_succ_self _
      · exact Nat.lt_succ_of_lt (h.ticket_lt entry hentry)

theorem Tidy.serve (h : Tidy patterns c) (r : Request) : Tidy (note patterns r) (c.serve r) := by
  cases r with
  | get pattern => exact h.get pattern
  | clear => exact tidy_clear c

theorem Tidy.serveAll (h : Tidy patterns c) (requests : List Request) :
    Tidy (requests.foldl note patterns) (c.serveAll requests) := by
  induction requests generalizing c patterns with
  | nil => exact h
  | cons r requests ih => exact ih (h.serve r)

theorem tidy_serveAll_empty (requests : List Request) :
    Tidy (sinceClear requests) (empty.serveAll requests) :=
  tidy_empty.serveAll requests

/-- There are as many entries as patterns that compile were asked for. -/
theorem Tidy.size_eq (h : Tidy patterns c) :
    c.size = (patterns.filter fun p => (Selector.compile p).isOk).dedup.length := by
  have hperm : (c.entries.map (·.1)).Perm
      (patterns.filter fun p => (Selector.compile p).isOk).dedup := by
    refine (List.perm_ext_iff_of_nodup h.keys_nodup (List.nodup_dedup _)).mpr fun p => ?_
    rw [h.mem_keys_iff, List.mem_dedup, List.mem_filter]
  rw [← hperm.length_eq, List.length_map, size]

/-! Tickets. An object stays in the cache until it is cleared, and after that its ticket is not given
out again. -/

theorem lookup_getOrCompile_self (h : c.getOrCompile pattern = (.ok compiled, next)) :
    next.entries.lookup pattern = some compiled := by
  have hserved := getOrCompile_cases c pattern
  rw [h] at hserved
  cases hserved with
  | held found => exact found
  | added => simp

theorem lookup_serve {r : Request} (h : c.entries.lookup pattern = some compiled)
    (hr : r ≠ .clear) : (c.serve r).entries.lookup pattern = some compiled := by
  cases r with
  | clear => exact absurd rfl hr
  | get other =>
    have hserved := getOrCompile_cases c other
    rw [serve]
    generalize c.getOrCompile other = outcome at hserved
    cases hserved with
    | held => exact h
    | failed => exact h
    | added missing =>
      have hne : (pattern == other) = false := by
        rw [beq_eq_false_iff_ne]
        rintro rfl
        rw [h] at missing
        cases missing
      simp only [List.lookup_cons, hne]
      exact h

theorem lookup_serveAll {requests : List Request} (h : c.entries.lookup pattern = some compiled)
    (hclear : Request.clear ∉ requests) :
    (c.serveAll requests).entries.lookup pattern = some compiled := by
  induction requests generalizing c with
  | nil => exact h
  | cons r requests ih =>
    rw [List.mem_cons, not_or] at hclear
    exact ih (lookup_serve h (Ne.symm hclear.1)) hclear.2

/-- The ticket has been given out, but no object in the cache has it. -/
def Retired (ticket : Nat) (c : SelectorCache) : Prop :=
  ticket < c.nextTicket ∧ ∀ e ∈ c.entries, e.2.ticket ≠ ticket

theorem retired_clear (h : ticket < c.nextTicket) : Retired ticket c.clear :=
  ⟨h, by simp [clear]⟩

theorem Retired.serve (h : Retired ticket c) (r : Request) : Retired ticket (c.serve r) := by
  cases r with
  | clear => exact retired_clear h.1
  | get pattern =>
    have hserved := getOrCompile_cases c pattern
    rw [SelectorCache.serve]
    generalize c.getOrCompile pattern = outcome at hserved
    cases hserved with
    | held => exact h
    | failed => exact h
    | added =>
      refine ⟨Nat.lt_succ_of_lt h.1, fun e he => ?_⟩
      rcases List.mem_cons.mp he with rfl | he
      · exact Nat.ne_of_gt h.1
      · exact h.2 e he

theorem Retired.serveAll (h : Retired ticket c) (requests : List Request) :
    Retired ticket (c.serveAll requests) := by
  induction requests generalizing c with
  | nil => exact h
  | cons r requests ih => exact ih (h.serve r)

theorem Retired.ticket_ne (h : Retired ticket c)
    (hget : (c.getOrCompile pattern).1 = .ok compiled) : compiled.ticket ≠ ticket := by
  have hserved := getOrCompile_cases c pattern
  generalize c.getOrCompile pattern = outcome at hserved hget
  cases hserved with
  | held found =>
    cases hget
    exact h.2 _ (mem_of_lookup found)
  | failed => cases hget
  | added =>
    cases hget
    exact Nat.ne_of_gt h.1

theorem nextTicket_le_serve (c : SelectorCache) (r : Request) :
    c.nextTicket ≤ (c.serve r).nextTicket := by
  cases r with
  | clear => exact Nat.le_refl _
  | get pattern =>
    have hserved := getOrCompile_cases c pattern
    rw [serve]
    generalize c.getOrCompile pattern = outcome at hserved
    cases hserved with
    | held => exact Nat.le_refl _
    | failed => exact Nat.le_refl _
    | added => exact Nat.le_succ _

theorem nextTicket_le_serveAll (c : SelectorCache) (requests : List Request) :
    c.nextTicket ≤ (c.serveAll requests).nextTicket := by
  induction requests generalizing c with
  | nil => exact Nat.le_refl _
  | cons r requests ih => exact Nat.le_trans (nextTicket_le_serve c r) (ih _)

/-- An earlier answer is given again only for the same pattern, and only until the cache is cleared;
then it is. -/
theorem ticket_eq_iff (h : Tidy patterns c) (hfirst : c.getOrCompile pattern = (.ok compiled, next))
    {between : List Request}
    (hlater : ((next.serveAll between).getOrCompile other).1 = .ok later) :
    later.ticket = compiled.ticket ↔ other = pattern ∧ Request.clear ∉ between := by
  have hnext : Tidy (patterns ++ [pattern]) next := by
    have := h.get pattern
    rwa [hfirst] at this
  have hheld := lookup_getOrCompile_self hfirst
  by_cases hclear : Request.clear ∈ between
  · obtain ⟨before, after, rfl⟩ := List.append_of_mem hclear
    have hlt := Nat.lt_of_lt_of_le (hnext.ticket_lt _ (mem_of_lookup hheld))
      (nextTicket_le_serveAll next before)
    have hretired : Retired compiled.ticket (next.serveAll (before ++ .clear :: after)) := by
      rw [serveAll_append, serveAll_cons]
      exact (retired_clear hlt).serveAll after
    simp [hclear, hretired.ticket_ne hlater]
  · have hstill := lookup_serveAll hheld hclear
    have htidy := hnext.serveAll between
    have hserved := getOrCompile_cases (next.serveAll between) other
    generalize (next.serveAll between).getOrCompile other = outcome at hserved hlater
    simp only [hclear, not_false_eq_true, and_true]
    cases hserved with
    | failed => cases hlater
    | held found =>
      cases hlater
      constructor
      · intro hticket
        have hentry := List.inj_on_of_nodup_map htidy.tickets_nodup (mem_of_lookup found)
          (mem_of_lookup hstill) hticket
        exact (Prod.mk.inj hentry).1
      · rintro rfl
        rw [hstill] at found
        cases found
        rfl
    | added missing =>
      cases hlater
      constructor
      · intro hticket
        have hlt : compiled.ticket < _ := htidy.ticket_lt _ (mem_of_lookup hstill)
        exact absurd hticket (Nat.ne_of_gt hlt)
      · rintro rfl
        rw [hstill] at missing
        cases missing

end ScriptLint.SelectorCache
