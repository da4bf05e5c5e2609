import Mathlib.Data.List.Basic

/-!
Slash-separated paths and their lexical cleaning.

`clean`, `join` and `base` follow the documented behaviour of Go's `path.Clean`,
`path.Join` and `path.Base`: elements are concatenated with slashes, then repeated slashes and
`.` go away, `..` cancels the component before it, and a rooted path cannot be
left upwards. The lemmas are about rooted paths. A clean rooted path is
`render cs` for a list of `Plain` components, joining onto it is `descend`
(`join_render`), and different component lists render differently
(`render_injective`).
-/

namespace Bbs.Path

/-- What stands between two slashes. -/
abbrev Component := List Char

/-- Push one component on the stack of components cleaned so far. -/
def push (rooted : Bool) (stack : List Component) (c : Component) : List Component :=
  if c = [] ∨ c = ['.'] then stack
  else if c = ['.', '.'] then
    if stack = [] then (if rooted then [] else [c])
    else if stack.getLast? = some ['.', '.'] then stack ++ [c]
    else stack.dropLast
  else stack ++ [c]

def split (p : List Char) : List Component :=
  p.splitOn '/'

def clean (p : String) : String :=
  let rooted := p.toList.head? = some '/'
  let body := ['/'].intercalate ((split p.toList).foldl (push rooted) [])
  if rooted then String.ofList ('/' :: body)
  else if body = [] then "." else String.ofList body

/-- Leading empty elements are skipped; an empty result stays empty. -/
def join (elements : List String) : String :=
  match elements.dropWhile (· = "") with
  | [] => ""
  | e :: es => clean (String.ofList (['/'].intercalate ((e :: es).map String.toList)))

/-- The non-empty components of a path. -/
def components (p : String) : List String :=
  ((split p.toList).filter (· ≠ [])).map String.ofList

/-! ### Rooted paths -/

/-- A component that cleaning keeps as it is. -/
def Plain (c : Component) : Prop :=
  c ≠ [] ∧ c ≠ ['.'] ∧ c ≠ ['.', '.'] ∧ '/' ∉ c

instance (c : Component) : Decidable (Plain c) :=
  inferInstanceAs (Decidable (_ ∧ _))

/-- The rooted path with the given components. -/
def render (cs : List Component) : String :=
  String.ofList ('/' :: ['/'].intercalate cs)

/-- Where the path `p` leads from the directory `cs` of a rooted path. -/
def descend (cs : List Component) (p : String) : List Component :=
  (split p.toList).foldl (push true) cs

theorem push_plain {stack : List Component} {c : Component} (h : Plain c) :
    push true stack c = stack ++ [c] := by
  simp [push, h.1, h.2.1, h.2.2.1]

theorem foldl_push_plain (stack : List Component) {cs : List Component} (h : ∀ c ∈ cs, Plain c) :
    cs.foldl (push true) stack = stack ++ cs := by
  induction cs generalizing stack with
  | nil => simp
  | cons c cs ih =>
      rw [List.foldl_cons, push_plain (h c List.mem_cons_self),
        ih _ fun d hd => h d (List.mem_cons_of_mem _ hd)]
      simp

/-- Pushing a component without a slash keeps the stack plain. -/
theorem push_isPlain {stack : List Component} (h : ∀ c ∈ stack, Plain c) {c : Component}
    (noSlash : '/' ∉ c) : ∀ d ∈ push true stack c, Plain d := by
  unfold push
  split
  · exact h
  · rename_i skip
    split
    · split
      · simp
      · split
        · rename_i last
          exact absurd rfl (h _ (List.mem_of_getLast? last)).2.2.1
        · exact fun d hd => h d (List.dropLast_subset _ hd)
    · rename_i parent
      intro d hd
      rcases List.mem_append.mp hd with hd | hd
      · exact h d hd
      · rw [List.mem_singleton.mp hd]
        exact ⟨fun e => skip (.inl e), fun e => skip (.inr e), parent, noSlash⟩

/-- On plain stacks of one length, pushing leaves stacks of one length. -/
theorem push_length {cs ds : List Component} (hc : ∀ c ∈ cs, Plain c) (hd : ∀ d ∈ ds, Plain d)
    (same : cs.length = ds.length) (c : Component) :
    (push true cs c).length = (push true ds c).length := by
  have emptiness : cs = [] ↔ ds = [] := by
    rw [← List.length_eq_zero_iff, ← List.length_eq_zero_iff, same]
  have noParent {es : List Component} (h : ∀ e ∈ es, Plain e) :
      es.getLast? ≠ some ['.', '.'] :=
    fun last => (h _ (List.mem_of_getLast? last)).2.2.1 rfl
  unfold push
  split
  · exact same
  · split
    · simp only [if_neg (noParent hc), if_neg (noParent hd), emptiness]
      split <;> simp [same]
    · simp [same]

theorem not_slash_of_mem_split {p : List Char} {c : Component} (h : c ∈ split p) : '/' ∉ c := by
  induction p generalizing c with
  | nil =>
      simp only [split, List.splitOn_nil, List.mem_singleton] at h
      simp [h]
  | cons x p ih =>
      simp only [split, List.splitOn, List.splitOnP_cons_eq_if_modifyHead] at h ih
      split at h
      · rcases List.mem_cons.mp h with rfl | h
        · simp
        · exact ih h
      · rename_i ne
        cases hs : List.splitOnP (fun y => y == '/') p with
        | nil => simp [hs] at h
        | cons d ds =>
            rw [hs] at h ih
            rw [List.modifyHead_cons] at h
            rcases List.mem_cons.mp h with rfl | h
            · intro slash
              rcases List.mem_cons.mp slash with rfl | slash
              · simp at ne
              · exact ih List.mem_cons_self slash
            · exact ih (List.mem_cons_of_mem _ h)

theorem split_append_slash (p q : List Char) : split (p ++ '/' :: q) = split p ++ split q :=
  List.splitOnP_append_cons p q (by simp)

theorem split_slash (p : List Char) : split ('/' :: p) = [] :: split p := by
  rw [← List.nil_append ('/' :: p), split_append_slash]
  rfl

theorem split_plain {c : Component} (h : Plain c) : split c = [c] := by
  refine List.splitOnP_eq_singleton fun x hx => ?_
  have : x ≠ '/' := fun e => h.2.2.2 (e ▸ hx)
  simpa using this

theorem split_intercalate {cs : List Component} (h : ∀ c ∈ cs, Plain c) (ne : cs ≠ []) :
    split (['/'].intercalate cs) = cs :=
  List.splitOn_intercalate '/' (fun c hc => (h c hc).2.2.2) ne

/-- Splitting a rendered path gives its components, apart from empty ones. -/
theorem filter_split_render {cs : List Component} (h : ∀ c ∈ cs, Plain c) :
    (split (render cs).toList).filter (· ≠ []) = cs := by
  rw [render, String.toList_ofList, split_slash]
  by_cases ne : cs = []
  · subst ne
    simp [split]
  · rw [split_intercalate h ne]
    have keep : cs.filter (· ≠ []) = cs :=
      List.filter_eq_self.mpr fun c hc => by simpa using (h c hc).1
    simpa using keep

theorem components_render {cs : List Component} (h : ∀ c ∈ cs, Plain c) :
    components (render cs) = cs.map String.ofList := by
  rw [components, filter_split_render h]

theorem render_injective {cs ds : List Component} (hc : ∀ c ∈ cs, Plain c)
    (hd : ∀ d ∈ ds, Plain d) (same : render cs = render ds) : cs = ds := by
  rw [← filter_split_render hc, same, filter_split_render hd]

theorem descend_isPlain {cs : List Component} (h : ∀ c ∈ cs, Plain c) (p : String) :
    ∀ d ∈ descend cs p, Plain d := by
  have slashes : ∀ c ∈ split p.toList, '/' ∉ c := fun c hc => not_slash_of_mem_split hc
  unfold descend
  generalize split p.toList = l at slashes
  induction l generalizing cs with
  | nil => exact h
  | cons c l ih =>
      exact ih (push_isPlain h (slashes c List.mem_cons_self))
        fun d hd => slashes d (List.mem_cons_of_mem _ hd)

/-- Descending along one path changes the depth of all directories of one depth
alike. -/
theorem descend_length {cs ds : List Component} (hc : ∀ c ∈ cs, Plain c) (hd : ∀ d ∈ ds, Plain d)
    (same : cs.length = ds.length) (p : String) :
    (descend cs p).length = (descend ds p).length := by
  have slashes : ∀ c ∈ split p.toList, '/' ∉ c := fun c hc => not_slash_of_mem_split hc
  unfold descend
  generalize split p.toList = l at slashes
  induction l generalizing cs ds with
  | nil => exact same
  | cons c l ih =>
      have noSlash := slashes c List.mem_cons_self
      exact ih (push_isPlain hc noSlash) (push_isPlain hd noSlash) (push_length hc hd same c)
        fun d h => slashes d (List.mem_cons_of_mem _ h)

theorem descend_plain {cs : List Component} {p : String} (h : Plain p.toList) :
    descend cs p = cs ++ [p.toList] := by
  rw [descend, split_plain h]
  exact push_plain h

/-- Joining onto a rooted path descends from it. -/
theorem join_render {cs : List Component} (h : ∀ c ∈ cs, Plain c) (p : String) :
    join [render cs, p] = render (descend cs p) := by
  have start : (split ('/' :: ['/'].intercalate cs)).foldl (push true) [] = cs := by
    rw [split_slash]
    by_cases ne : cs = []
    · subst ne
      simp [split, push]
    · rw [split_intercalate h ne]
      simpa [push] using foldl_push_plain [] h
  have whole : (split ('/' :: (['/'].intercalate cs ++ '/' :: p.toList))).foldl (push true) [] =
      descend cs p := by
    rw [← List.cons_append, split_append_slash, List.foldl_append, start, descend]
  have joined : join [render cs, p] =
      clean (String.ofList ('/' :: (['/'].intercalate cs ++ '/' :: p.toList))) := by
    simp [join, render, List.intercalate]
  rw [joined, clean, String.toList_ofList]
  simp [whole, render]

/-! ### The last component -/

/-- `path.Base` of Go. -/
def base (p : String) : String :=
  if p = "" then "."
  else
    match p.toList.reverse.dropWhile (· = '/') with
    | [] => "/"
    | stripped => String.ofList (stripped.takeWhile (· ≠ '/')).reverse

theorem cons_intercalate_concat (cs : List Component) (c : Component) :
    ∃ start, '/' :: ['/'].intercalate (cs ++ [c]) = start ++ '/' :: c := by
  induction cs with
  | nil => exact ⟨[], by simp⟩
  | cons d ds ih =>
      obtain ⟨start, eq⟩ := ih
      refine ⟨'/' :: d ++ start, ?_⟩
      have : ∃ e es, ds ++ [c] = e :: es := by
        cases ds <;> simp
      obtain ⟨e, es, h⟩ := this
      rw [List.cons_append, h, List.intercalate_cons_cons]
      rw [h] at eq
      simp [eq]

/-- The last component of a rooted path. -/
theorem base_render_concat {cs : List Component} {c : Component} (h : Plain c) :
    base (render (cs ++ [c])) = String.ofList c := by
  obtain ⟨start, eq⟩ := cons_intercalate_concat cs c
  have text : (render (cs ++ [c])).toList.reverse = c.reverse ++ '/' :: start.reverse := by
    rw [render, String.toList_ofList, eq]
    simp
  have nonempty : render (cs ++ [c]) ≠ "" := by
    intro none
    simp [none] at text
  obtain ⟨d, ds, last⟩ := List.exists_cons_of_ne_nil (List.reverse_ne_nil_iff.mpr h.1)
  have slash : ∀ e ∈ d :: ds, e ≠ '/' := by
    rintro e he rfl
    rw [← last, List.mem_reverse] at he
    exact h.2.2.2 he
  have kept : ((d :: ds) ++ '/' :: start.reverse).dropWhile (· = '/') =
      (d :: ds) ++ '/' :: start.reverse := by
    simp [slash d List.mem_cons_self]
  have taken : ((d :: ds) ++ '/' :: start.reverse).takeWhile (· ≠ '/') = d :: ds := by
    rw [List.takeWhile_append_of_pos (by simpa using slash)]
    simp
  rw [base, if_neg nonempty, text, last, kept]
  simp only [List.cons_append] at taken ⊢
  rw [taken, ← last, List.reverse_reverse]

end Bbs.Path
