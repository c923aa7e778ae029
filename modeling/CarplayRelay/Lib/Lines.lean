import CarplayRelay.Lib.Recv
import Mathlib.Data.List.TakeWhile

/-!
# Words and lines

`tokens` is what stands between the delimiters of a string. A header in the manner of HTTP is a
list of lines, with an empty one behind them: `text`.

* `tokens_cases`: the first token, and those behind it.
* `tokens_text`, `strstr_text`: the lines of a header, and where it ends.
-/

namespace Lines

open Recv

section
variable {α : Type*} {delim : α → Bool} {l t : List α} {a : α}

/-- The pieces between delimiters that are not empty. -/
def tokens (delim : α → Bool) (l : List α) : List (List α) :=
  (l.splitOnP delim).filter (!·.isEmpty)

@[simp] theorem tokens_nil : tokens delim [] = [] := rfl

theorem tokens_cons_delim (h : delim a = true) : tokens delim (a :: l) = tokens delim l := by
  rw [tokens, List.splitOnP_cons_eq_if_modifyHead, if_pos h]
  rfl

theorem tokens_append_cons (h : delim a = true) :
    tokens delim (l ++ a :: t) = tokens delim l ++ tokens delim t := by
  rw [tokens, List.splitOnP_append_cons _ _ h, List.filter_append]
  rfl

theorem tokens_self (hne : l ≠ []) (h : ∀ b ∈ l, delim b = false) : tokens delim l = [l] := by
  rw [tokens, List.splitOnP_eq_singleton h, List.filter_cons_of_pos]
  · rfl
  · simp [hne]

theorem tokens_delims (h : ∀ b ∈ l, delim b = true) : tokens delim (l ++ t) = tokens delim t := by
  induction l with
  | nil => rfl
  | cons a l ih =>
    rw [List.cons_append, tokens_cons_delim (h a List.mem_cons_self)]
    exact ih fun b hb => h b (List.mem_cons_of_mem a hb)

/-- **The first token** stands behind delimiters, and a delimiter or nothing behind it. -/
theorem tokens_cases (delim : α → Bool) (l : List α) :
    ((∀ b ∈ l, delim b = true) ∧ tokens delim l = []) ∨
    ∃ before token after, l = before ++ (token ++ after) ∧ (∀ b ∈ before, delim b = true) ∧
      token ≠ [] ∧ (∀ b ∈ token, delim b = false) ∧
      ((after = [] ∧ tokens delim l = [token]) ∨
        ∃ sep rest, after = sep :: rest ∧ delim sep = true ∧
          tokens delim l = token :: tokens delim rest) := by
  have hsplit := List.takeWhile_append_dropWhile (p := delim) (l := l)
  have hbefore : ∀ b ∈ l.takeWhile delim, delim b = true := fun b hb => List.mem_takeWhile_imp hb
  cases hrest : l.dropWhile delim with
  | nil =>
    rw [hrest, List.append_nil] at hsplit
    rw [hsplit] at hbefore
    exact .inl ⟨hbefore, by rw [← List.append_nil l, tokens_delims hbefore, tokens_nil]⟩
  | cons b rest =>
    have hb : delim b = false := by
      have hhead := List.head_dropWhile_not delim (l := l)
        (by rw [hrest]; exact List.cons_ne_nil b rest)
      simpa [hrest] using hhead
    have hne : (b :: rest).takeWhile (!delim ·) ≠ [] := by simp [hb]
    have htoken : ∀ c ∈ (b :: rest).takeWhile (!delim ·), delim c = false := fun c hc => by
      simpa using List.mem_takeWhile_imp hc
    have hafter : ∀ sep after, (b :: rest).dropWhile (!delim ·) = sep :: after →
        delim sep = true := fun sep after h => by
      have hhead := List.head_dropWhile_not (!delim ·) (l := b :: rest)
        (by rw [h]; exact List.cons_ne_nil sep after)
      simpa [h] using hhead
    have hsplit' := List.takeWhile_append_dropWhile (p := (!delim ·)) (l := b :: rest)
    generalize (b :: rest).takeWhile (!delim ·) = token at hne htoken hsplit'
    generalize (b :: rest).dropWhile (!delim ·) = after at hafter hsplit'
    rw [hrest, ← hsplit'] at hsplit
    refine .inr ⟨_, token, after, hsplit.symm, hbefore, hne, htoken, ?_⟩
    rw [← hsplit, tokens_delims hbefore]
    cases after with
    | nil => exact .inl ⟨rfl, by rw [List.append_nil, tokens_self hne htoken]⟩
    | cons sep after =>
      have hsep := hafter sep after rfl
      refine .inr ⟨sep, after, rfl, hsep, ?_⟩
      rw [tokens_append_cons hsep, tokens_self hne htoken]
      rfl

/-- A pattern without a separator stands on one side of it. -/
theorem infix_of_separator {pat a b : List α} {sep : α} (hsep : sep ∉ pat)
    (h : pat <:+: a ++ sep :: b) : pat <:+: a ∨ pat <:+: b := by
  induction a with
  | nil =>
    rcases List.infix_cons_iff.1 h with hpre | hinfix
    · cases pat with
      | nil => exact .inl List.infix_rfl
      | cons c pat =>
        obtain rfl := (List.cons_prefix_cons.1 hpre).1
        exact absurd List.mem_cons_self hsep
    · exact .inr hinfix
  | cons x a ih =>
    rcases List.infix_cons_iff.1 h with hpre | hinfix
    · rcases Nat.lt_or_ge (x :: a).length pat.length with hlt | hle
      · have hmem : sep ∈ pat := by
          obtain ⟨t, ht⟩ : x :: a ++ [sep] <+: pat :=
            List.prefix_of_prefix_length_le (by simp) hpre (by simp at hlt ⊢; omega)
          rw [← ht]
          simp
        exact absurd hmem hsep
      · exact .inl (List.prefix_of_prefix_length_le hpre (List.prefix_append _ _) hle).isInfix
    · rcases ih hinfix with hleft | hright
      · exact .inl (List.infix_cons hleft)
      · exact .inr hright

end

/-! ## Lines -/

def crlf : Bytes := [13, 10]

def crlfcrlf : Bytes := [13, 10, 13, 10]

/-- Line breaks. -/
def isBreak (b : UInt8) : Bool := b ∈ crlf

/-- A header: lines, and an empty one. -/
def text (ls : List Bytes) : Bytes := ls.flatMap (· ++ crlf) ++ crlf

/-- A line of a header. -/
structure Line (l : Bytes) : Prop where
  ne_nil : l ≠ []
  no_break : ∀ b ∈ l, isBreak b = false

theorem text_cons (l : Bytes) (ls : List Bytes) : text (l :: ls) = l ++ 13 :: 10 :: text ls := by
  simp [text, crlf]

theorem tokens_text {ls : List Bytes} (h : ∀ l ∈ ls, Line l) : tokens isBreak (text ls) = ls := by
  induction ls with
  | nil => rfl
  | cons l ls ih =>
    have hl := h l List.mem_cons_self
    rw [text_cons, tokens_append_cons rfl, tokens_cons_delim rfl, tokens_self hl.ne_nil hl.no_break,
      ih fun l hl => h l (List.mem_cons_of_mem _ hl)]
    rfl

/-- A line is skipped by a search for line breaks. -/
theorem strstr_line {l t : Bytes} (h : ∀ b ∈ l, isBreak b = false) :
    strstr crlfcrlf (l ++ t) = (strstr crlfcrlf t).map (· + l.length) := by
  induction l with
  | nil => simp
  | cons b l ih =>
    have hb : b ≠ 13 := by
      rintro rfl
      exact absurd (h 13 List.mem_cons_self) (by decide)
    rw [List.cons_append, strstr, if_neg, ih fun c hc => h c (List.mem_cons_of_mem _ hc),
      Option.map_map]
    · rfl
    · simp [crlfcrlf, Ne.symm hb]

/-- **A header ends** at its first empty line. -/
theorem strstr_text {ls : List Bytes} (hne : ls ≠ []) (h : ∀ l ∈ ls, Line l) :
    strstr crlfcrlf (text ls) = some ((text ls).length - 4) := by
  induction ls with
  | nil => exact absurd rfl hne
  | cons l ls ih =>
    have hl := h l List.mem_cons_self
    rw [text_cons, strstr_line hl.no_break]
    cases ls with
    | nil =>
      rw [show strstr crlfcrlf (13 :: 10 :: text []) = some 0 by decide]
      simp [text, crlf]
    | cons l' ls =>
      have hl' := h l' (by simp)
      have hih := ih (List.cons_ne_nil l' ls) fun l hl => h l (List.mem_cons_of_mem _ hl)
      obtain ⟨b, l', rfl⟩ := List.exists_cons_of_ne_nil hl'.ne_nil
      have hb : b ≠ 13 := by
        rintro rfl
        exact absurd (hl'.no_break 13 List.mem_cons_self) (by decide)
      have hlen : 4 ≤ (text ((b :: l') :: ls)).length := by
        rw [text_cons]
        simp [text, crlf]
        omega
      have hskip : strstr crlfcrlf (13 :: 10 :: text ((b :: l') :: ls)) =
          (strstr crlfcrlf (text ((b :: l') :: ls))).map (· + 2) := by
        rw [strstr, if_neg, strstr, if_neg, Option.map_map]
        · rfl
        · simp [crlfcrlf]
        · simp [crlfcrlf, text_cons, Ne.symm hb]
      rw [hskip, hih]
      simp only [Option.map_some, List.length_append, List.length_cons]
      congr 1
      omega

/-- The lines of a header, without the empty one. -/
theorem tokens_text_take {ls : List Bytes} (hne : ls ≠ []) (h : ∀ l ∈ ls, Line l) :
    tokens isBreak ((text ls).take ((text ls).length - 4)) = ls := by
  induction ls with
  | nil => exact absurd rfl hne
  | cons l ls ih =>
    have hl := h l List.mem_cons_self
    cases ls with
    | nil =>
      have htext : text [l] = l ++ crlfcrlf := by simp [text, crlf, crlfcrlf]
      have hlen : (l ++ crlfcrlf).length - 4 = l.length := by simp [crlfcrlf]
      rw [htext, hlen, List.take_left, tokens_self hl.ne_nil hl.no_break]
    | cons l' ls =>
      have hih := ih (List.cons_ne_nil l' ls) fun l hl => h l (List.mem_cons_of_mem _ hl)
      have hlen : 4 ≤ (text (l' :: ls)).length := by
        rw [text_cons]
        simp [text, crlf]
        omega
      have htake : (text (l :: l' :: ls)).take ((text (l :: l' :: ls)).length - 4) =
          l ++ 13 :: 10 :: (text (l' :: ls)).take ((text (l' :: ls)).length - 4) := by
        rw [text_cons l, List.length_append, List.length_cons, List.length_cons,
          show l.length + ((text (l' :: ls)).length + 1 + 1) - 4 =
            l.length + (((text (l' :: ls)).length - 4) + 1 + 1) by omega,
          List.take_length_add_append, List.take_succ_cons, List.take_succ_cons]
      rw [htake, tokens_append_cons rfl, tokens_cons_delim rfl, tokens_self hl.ne_nil hl.no_break,
        hih]
      rfl

end Lines
