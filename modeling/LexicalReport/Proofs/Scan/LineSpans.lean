import LexicalReport.Proofs.Scan.CarriageReturns
import LexicalReport.Proofs.Text.Printable

/-! What goes over a line end. Apart from what stands between tokens, only a raw string does, an
unterminated block comment, and the fault of a raw string that is left open. So a token with a line
end in its value is a raw string, and no message of a fault holds a line end. -/

namespace LexicalReport

namespace Scan

def Content.spans (first : Char) : Content → Bool
  | .skipped | .comment => true
  | .token kind => kind == .stringLiteral && first == '\x60'
  | .fault f => f.runsOn [first]

theorem blockContent_spans (rest : List Char) (c : Char) :
    (blockContent rest).1.spans c = true := by
  unfold blockContent
  split <;> rfl

theorem rawContent_spans (rest : List Char) : (rawContent rest).1.spans '\x60' = true := by
  unfold rawContent
  split <;> rfl

/-- A fault that goes on at the end of a text goes on, or is closed, in any longer text. -/
theorem spans_of_runsOn {c : Char} {cs : List Char} {f : Fault}
    (fault : (contentAt c cs).1 = .fault f) (goes : f.runsOn [c] = true) (y : List Char) :
    (contentAt c (cs ++ y)).1.spans c = true := by
  have form := contentAt_describes c cs
  rw [fault] at form
  cases f with
  | unterminatedComment =>
    have opens : ['/', '*'] <+: c :: cs := form.trans
      (List.prefix_cons_inj c |>.mpr (List.take_prefix _ cs))
    obtain ⟨more, same⟩ := opens
    cases same
    rw [contentAt_block rfl]
    exact blockContent_spans _ _
  | unterminatedString =>
    have raw : c = '\x60' := by simpa [Fault.runsOn] using goes
    rw [raw, contentAt_raw]
    exact rawContent_spans _
  | _ => cases goes

theorem contentAt_spans {c : Char} {rest : List Char}
    (across : '\n' ∈ c :: rest.take (contentAt c rest).2) :
    (contentAt c rest).1.spans c = true := by
  by_cases skipped : isSkipped c = true
  · rw [contentAt_of_isSkipped skipped]
    rfl
  · by_contra short
    -- what does not go on at the end of its line ends there, so no line end is in it
    obtain ⟨flat, y, rfl, pure, ends⟩ := exists_line rest
    have closed : ∀ f, (contentAt c flat).1 = .fault f → f.runsOn [c] = false := by
      intro f fault
      by_contra goes
      exact short (spans_of_runsOn fault (by simpa using goes) y)
    have same : contentAt c (flat ++ y) = contentAt c flat := by
      rcases ends with rfl | ⟨more, rfl⟩
      · rw [List.append_nil]
      · exact contentAt_append_line closed more
    rw [same, List.take_append_of_le_length (contentAt_le c flat)] at across
    rcases List.mem_cons.mp across with rfl | inside
    · exact skipped rfl
    · exact pure (List.mem_of_mem_take inside)

theorem segments_spans (cs : List Char) : ∀ x ∈ segments cs, '\n' ∈ x.text →
    ∃ c, x.text.head? = some c ∧ x.content.spans c = true := by
  fun_induction segments cs with
  | case1 => exact fun _ none => absurd none List.not_mem_nil
  | case2 c rest found ih =>
    intro x inside across
    rcases List.mem_cons.mp inside with rfl | later
    · exact ⟨c, rfl, contentAt_spans across⟩
    · exact ih x later across

theorem segment_of_token {source : String} {t : Token} (inside : t ∈ (ofText source).tokens) :
    ⟨.token t.kind, t.value.toList⟩ ∈ segments source.toList := by
  have found := List.mem_map_of_mem (f := fun t => (t.kind, t.value)) inside
  rw [ofText_eq, ofSegments, locate_tokens] at found
  obtain ⟨⟨content, text⟩, cut, same⟩ := List.mem_filterMap.mp found
  cases content with
  | token kind =>
    simp only [Segment.token?, Option.some.injEq, Prod.mk.injEq] at same
    rw [← same.1, ← same.2, String.toList_ofList]
    exact cut
  | _ => cases same

theorem segment_of_error {source : String} {d : Diagnostic} (inside : d ∈ (ofText source).errors) :
    ∃ text, ⟨.fault d.fault, text⟩ ∈ segments source.toList := by
  have found := List.mem_map_of_mem (f := Diagnostic.fault) inside
  rw [ofText_eq, ofSegments, locate_faults] at found
  obtain ⟨⟨content, text⟩, cut, same⟩ := List.mem_filterMap.mp found
  cases content with
  | fault f =>
    simp only [Segment.fault?, Option.some.injEq] at same
    exact ⟨text, same ▸ cut⟩
  | _ => cases same

theorem token_spans {source : String} {t : Token} (inside : t ∈ (ofText source).tokens)
    (across : '\n' ∈ t.value.toList) :
    t.kind = .stringLiteral ∧ t.value.toList.head? = some '\x60' := by
  obtain ⟨c, head, spans⟩ := segments_spans _ _ (segment_of_token inside) across
  simp_all [Content.spans]

theorem quoted_flat {source : String} {d : Diagnostic} (inside : d ∈ (ofText source).errors)
    {quote : String} (quotes : d.fault.quoted? = some quote) : '\n' ∉ quote.toList := by
  obtain ⟨text, cut⟩ := segment_of_error inside
  obtain ⟨-, form⟩ := segments_describes _ _ cut
  generalize d.fault = fault at quotes cut form
  intro across
  have whole : text = quote.toList := by
    cases fault <;> cases quotes <;> simpa [Content.Describes, Fault.Concerns] using form
  obtain ⟨c, -, spans⟩ := segments_spans _ _ cut (whole ▸ across)
  cases fault <;> cases quotes <;> cases spans

end Scan

theorem Fault.message_flat {f : Fault}
    (flat : ∀ quote, f.quoted? = some quote → '\n' ∉ quote.toList) :
    '\n' ∉ f.message.toList := by
  cases f with
  | illegalCharacter _ | malformedNumber _ =>
    exact Text.not_mem_append.mpr ⟨Text.not_mem_append.mpr ⟨by decide, flat _ rfl⟩, by decide⟩
  | _ => decide

theorem Diagnostic.message_flat {d : Diagnostic} (flat : '\n' ∉ d.fault.message.toList) :
    '\n' ∉ d.message.toList := by
  have number (n : Nat) : '\n' ∉ (toString n).toList :=
    Text.not_mem_of_printable (by decide) (Text.printable_toString n)
  simp only [message, Text.not_mem_append]
  exact ⟨⟨⟨⟨flat, by decide⟩, number _⟩, by decide⟩, number _⟩

end LexicalReport
