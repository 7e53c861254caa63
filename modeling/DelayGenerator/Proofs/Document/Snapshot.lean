/-
This file shows that documents are decoded alike from texts and from values, whatever their shape,
and in whatever order their records list the members.
-/

import DelayGenerator.Document.Snapshot
import DelayGenerator.Proofs.Json.Decoder
import DelayGenerator.Proofs.Json.Order

namespace DelayGenerator.Document

open Json (Decoder commutes_of)
open Json.Decoder (isConsistent_text isConsistent_value isOrderless_text)

theorem isConsistent_scalar : scalar.IsConsistent := isConsistent_value.refine _

theorem isOrderless_scalar : scalar.IsOrderless := by
  intro value once
  cases value <;> rfl

section

variable {α : Type} (rule : Json.Scalar → Except Json.Refusal α)

theorem isConsistent_field : (field rule).IsConsistent := isConsistent_scalar.option.refine _

theorem isOrderless_field : (field rule).IsOrderless := isOrderless_scalar.option.refine _

end

theorem isConsistent_pulse : pulseLayout.decoder.IsConsistent := by
  refine Json.Layout.isConsistent_decoder fun field member => ?_
  simp only [pulseLayout, List.mem_cons, List.not_mem_nil, or_false] at member
  rcases member with rfl | rfl | rfl | rfl | rfl <;> exact (isConsistent_field _).field _ _

theorem isConsistent_entry : entryLayout.decoder.IsConsistent := by
  refine Json.Layout.isConsistent_decoder fun field member => ?_
  simp only [entryLayout, List.mem_cons, List.not_mem_nil, or_false] at member
  rcases member with rfl | rfl
  · exact (isConsistent_field index).field _ _
  · exact isConsistent_pulse.list.field _ _

theorem isConsistent_protocol : protocolLayout.decoder.IsConsistent := by
  refine Json.Layout.isConsistent_decoder fun field member => ?_
  simp only [protocolLayout, List.mem_cons, List.not_mem_nil, or_false] at member
  rcases member with rfl | rfl | rfl
  · exact (isConsistent_field switch).field _ _
  · exact (isConsistent_field time).field _ _
  · exact isConsistent_entry.list.field _ _

/-- A document makes the same snapshot as a text and as a value. -/
theorem isConsistent_snapshot : snapshotLayout.decoder.IsConsistent := by
  refine Json.Layout.isConsistent_decoder fun field member => ?_
  simp only [snapshotLayout, List.mem_cons, List.not_mem_nil, or_false] at member
  rcases member with rfl | rfl | rfl
  · exact isConsistent_text.field _ _
  · exact isConsistent_text.field _ _
  · exact (isConsistent_protocol.field _ _).required

theorem isOrderless_pulseLayout : pulseLayout.IsOrderless where
  fields field member := by
    simp only [pulseLayout, List.mem_cons, List.not_mem_nil, or_false] at member
    rcases member with rfl | rfl | rfl | rfl | rfl <;> exact (isOrderless_field _).field _ _
  commute := by
    simp only [pulseLayout, List.pairwise_cons, List.mem_cons, List.not_mem_nil, or_false, forall_eq_or_imp,
      forall_eq, false_imp_iff, implies_true, List.Pairwise.nil, and_true]
    refine ⟨⟨?_, ?_, ?_, ?_⟩, ⟨?_, ?_, ?_⟩, ⟨?_, ?_⟩, ?_⟩ <;> exact commutes_of fun _ _ _ => rfl

theorem isOrderless_entryLayout : entryLayout.IsOrderless where
  fields field member := by
    simp only [entryLayout, List.mem_cons, List.not_mem_nil, or_false] at member
    rcases member with rfl | rfl
    · exact (isOrderless_field index).field _ _
    · exact isOrderless_pulseLayout.decoder.list.field _ _
  commute := by
    simp only [entryLayout, List.pairwise_cons, List.mem_cons, List.not_mem_nil, or_false, forall_eq,
      false_imp_iff, implies_true, List.Pairwise.nil, and_true]
    exact commutes_of fun _ _ _ => rfl

theorem isOrderless_protocolLayout : protocolLayout.IsOrderless where
  fields field member := by
    simp only [protocolLayout, List.mem_cons, List.not_mem_nil, or_false] at member
    rcases member with rfl | rfl | rfl
    · exact (isOrderless_field switch).field _ _
    · exact (isOrderless_field time).field _ _
    · exact isOrderless_entryLayout.decoder.list.field _ _
  commute := by
    simp only [protocolLayout, List.pairwise_cons, List.mem_cons, List.not_mem_nil, or_false, forall_eq_or_imp,
      forall_eq, false_imp_iff, implies_true, List.Pairwise.nil, and_true]
    refine ⟨⟨?_, ?_⟩, ?_⟩ <;> exact commutes_of fun _ _ _ => rfl

theorem isOrderless_snapshotLayout : snapshotLayout.IsOrderless where
  fields field member := by
    simp only [snapshotLayout, List.mem_cons, List.not_mem_nil, or_false] at member
    rcases member with rfl | rfl | rfl
    · exact isOrderless_text.field _ _
    · exact isOrderless_text.field _ _
    · exact (isOrderless_protocolLayout.decoder.field _ _).required
  commute := by
    simp only [snapshotLayout, List.pairwise_cons, List.mem_cons, List.not_mem_nil, or_false, forall_eq_or_imp,
      forall_eq, false_imp_iff, implies_true, List.Pairwise.nil, and_true]
    refine ⟨⟨?_, ?_⟩, ?_⟩
    · exact commutes_of fun _ _ _ => rfl
    · exact Json.Field.Commutes.required (commutes_of (by intros; rfl))
    · exact Json.Field.Commutes.required (commutes_of (by intros; rfl))

end DelayGenerator.Document
