import Mathlib.Data.List.Basic

/-!
# Quoted texts

Texts between delimiters, in which an escape comes before whatever could be taken for one.  What was
quoted is read back from before its delimiter, whatever comes after that.
-/

namespace Cameo.Library

/-- A way to quote: what is written after an escape, and what that stands for. -/
structure Quoting (α : Type) where
  escape : α
  delimiter : α
  encode : α → Option α
  decode : α → α
  escape_ne_delimiter : escape ≠ delimiter
  encode_escape : (encode escape).isSome = true
  encode_delimiter : (encode delimiter).isSome = true
  decode_encode : ∀ x letter, encode x = some letter → decode letter = x

namespace Quoting

variable {α : Type} (quoting : Quoting α)

def quoteOne (x : α) : List α :=
  match quoting.encode x with
  | some letter => [quoting.escape, letter]
  | none => [x]

/-- A text as it is written between delimiters. -/
def quote (text : List α) : List α := text.flatMap quoting.quoteOne

/-- What is written in a quoted text stands for nothing by itself. -/
theorem not_mem_quote {c : α} (hencode : (quoting.encode c).isSome = true)
    (hescape : c ≠ quoting.escape)
    (hletter : ∀ x letter, quoting.encode x = some letter → c ≠ letter)
    (text : List α) : c ∉ quoting.quote text := by
  intro hmem
  obtain ⟨x, -, hx⟩ := List.mem_flatMap.mp hmem
  unfold quoteOne at hx
  cases hcode : quoting.encode x with
  | some letter =>
    rw [hcode] at hx
    rcases List.mem_cons.mp hx with heq | hrest
    · exact hescape heq
    · exact hletter x letter hcode (List.mem_singleton.mp hrest)
  | none =>
    rw [hcode] at hx
    rw [List.mem_singleton.mp hx, hcode] at hencode
    cases hencode

variable [DecidableEq α]

/-- The text up to the first delimiter that no escape comes before. -/
def unquote : List α → List α
  | [] => []
  | x :: rest =>
    if x = quoting.delimiter then []
    else if x = quoting.escape then
      match rest with
      | [] => []
      | letter :: later => quoting.decode letter :: unquote later
    else x :: unquote rest

theorem unquote_delimiter (rest : List α) : quoting.unquote (quoting.delimiter :: rest) = [] := by
  rw [unquote.eq_def]
  exact if_pos rfl

theorem unquote_escape (letter : α) (rest : List α) :
    quoting.unquote (quoting.escape :: letter :: rest) =
      quoting.decode letter :: quoting.unquote rest := by
  rw [unquote.eq_def]
  dsimp only
  rw [if_neg quoting.escape_ne_delimiter, if_pos rfl]

theorem unquote_plain {x : α} (h : quoting.encode x = none) (rest : List α) :
    quoting.unquote (x :: rest) = x :: quoting.unquote rest := by
  have hdelimiter : x ≠ quoting.delimiter := by
    rintro rfl
    exact absurd quoting.encode_delimiter (by simp [h])
  have hescape : x ≠ quoting.escape := by
    rintro rfl
    exact absurd quoting.encode_escape (by simp [h])
  rw [unquote.eq_def]
  dsimp only
  rw [if_neg hdelimiter, if_neg hescape]

/-- Reading stops at the delimiter and gives what was quoted. -/
theorem unquote_quote (text rest : List α) :
    quoting.unquote (quoting.quote text ++ quoting.delimiter :: rest) = text := by
  induction text with
  | nil => exact quoting.unquote_delimiter rest
  | cons x text ih =>
    rw [quote, List.flatMap_cons, List.append_assoc, quoteOne]
    cases hcode : quoting.encode x with
    | some letter =>
      calc quoting.unquote (quoting.escape :: letter ::
            (quoting.quote text ++ quoting.delimiter :: rest))
          = quoting.decode letter ::
              quoting.unquote (quoting.quote text ++ quoting.delimiter :: rest) :=
            quoting.unquote_escape letter _
        _ = x :: text := by rw [quoting.decode_encode x letter hcode, ih]
    | none =>
      calc quoting.unquote (x :: (quoting.quote text ++ quoting.delimiter :: rest))
          = x :: quoting.unquote (quoting.quote text ++ quoting.delimiter :: rest) :=
            quoting.unquote_plain hcode _
        _ = x :: text := by rw [ih]

end Quoting

end Cameo.Library
