import Mathlib.Data.List.Nodup
import SourcePrinter.Proofs.Dialect
import SourcePrinter.Proofs.Spans

/-! The spans of a rendering nest as the nodes of the tree do. -/

namespace SourcePrinter

/-- The spans in a table lie as an outline says: the span of a node holds those of the nodes below
it, nodes that are not below each other have spans apart, and the elements of a list stand in
order. Of a node with several places, all must be below the other. -/
structure SpanTable.Nests (t : SpanTable) (o : Outline) : Prop where
  ordered : ∀ {a sa}, t.get? a = some sa → sa.start ≤ sa.stop
  contains : ∀ {a b sa sb}, t.get? a = some sa → t.get? b = some sb → o.Below a b →
    o.Single b ∨ ¬ o.Outside a b → sa.contains sb = true
  apart : ∀ {a b sa sb}, t.get? a = some sa → t.get? b = some sb → a ≠ b → ¬ o.Below a b →
    ¬ o.Below b a → sa.stop ≤ sb.start ∨ sb.stop ≤ sa.start
  sequence : ∀ {a b sa sb}, t.get? a = some sa → t.get? b = some sb → o.Before a b →
    o.Single a → o.Single b → sa.stop ≤ sb.start

/-! ### Visits of distinct nodes -/

namespace Forest

variable {α β : Type} {g : α → β} {f : Forest α} {a b : α}

/-- Labels stand as their images do if no two have the same image. -/
theorem below_of_map (hg : (f.labels.map g).Nodup) (ha : a ∈ f.labels) (hb : b ∈ f.labels)
    (h : (f.map g).Below (g a) (g b)) : f.Below a b := by
  obtain ⟨c, d, hc, hd, hbelow⟩ := exists_of_below_map h
  rw [List.inj_on_of_nodup_map hg hbelow.mem.1 ha hc,
    List.inj_on_of_nodup_map hg hbelow.mem.2 hb hd] at hbelow
  exact hbelow

theorem earlier_of_map (hg : (f.labels.map g).Nodup) (ha : a ∈ f.labels) (hb : b ∈ f.labels)
    (h : (f.map g).Earlier (g a) (g b)) : f.Earlier a b := by
  obtain ⟨c, d, hc, hd, hearlier⟩ := exists_of_earlier_map h
  rw [List.inj_on_of_nodup_map hg hearlier.mem.1 ha hc,
    List.inj_on_of_nodup_map hg hearlier.mem.2 hb hd] at hearlier
  exact hearlier

namespace Fits

variable {f : Forest NodeKey} {o : Outline} {a b : NodeKey}

/-- A node that is shown has the nodes below it that stand nowhere else in the tree. -/
theorem below_of_not_outside (h : f.Fits o) (hd : o.Distinct) (ha : a ∈ f.labels)
    (hb : b ∈ f.labels) (hin : ¬ o.Outside a b) : f.Below a b := by
  refine (outside_or_below a hb).resolve_left fun hout => ?_
  rcases h.outside a b hout with hout | ⟨hcode, hfewer⟩
  · exact hin hout
  · -- Outside type references a node is in the tree once, so it cannot be shown less often.
    have hsingle : o.keys.count a ≤ 1 := hd a hcode
    have hshown : 0 < f.labels.count a := List.count_pos_iff.2 ha
    omega

theorem earlier_or_earlier (h : f.Fits o) (ha : a ∈ f.labels) (hb : b ∈ f.labels) (hne : a ≠ b)
    (hab : ¬ o.Below a b) (hba : ¬ o.Below b a) : f.Earlier a b ∨ f.Earlier b a := by
  rcases compare ha hb with heq | hbelow | hbelow | hearlier
  · exact absurd heq hne
  · exact absurd (h.below a b hbelow) hab
  · exact absurd (h.below b a hbelow) hba
  · exact hearlier

end Fits

end Forest

/-- A run that visits every node once keeps spans that nest as an outline that fits it. -/
theorem Forest.Lie.nests {f : Forest Visited} {lo hi : Position} {o : Outline} (h : f.Lie lo hi)
    (hf : (f.map Visited.key).Fits o) (hd : o.Distinct)
    (once : ∀ k, (f.map Visited.key).labels.count k ≤ 1) :
    (f.record .empty).Nests o := by
  have hnodup : (f.labels.map Visited.key).Nodup := by
    rw [← Forest.labels_map, List.nodup_iff_count]
    exact once
  -- A span that is kept is that of the one visit of its node.
  have lookup : ∀ {k s}, (f.record .empty).get? k = some s →
      ∃ v ∈ f.labels, v.key ∈ (f.map Visited.key).labels ∧ v.key = k ∧ v.span = s := by
    intro k s hk
    obtain ⟨v, hv, hkey, hspan⟩ := (Forest.get?_record hk).resolve_right (by simp)
    refine ⟨v, hv, ?_, hkey, hspan⟩
    rw [Forest.labels_map]
    exact List.mem_map_of_mem hv
  constructor
  case ordered =>
    intro a sa ha
    obtain ⟨v, hv, -, rfl, rfl⟩ := lookup ha
    exact (h.mem hv).2.1
  case contains =>
    intro a b sa sb ha hb hab hplace
    have hin : ¬ o.Outside a b := hplace.elim hab.not_outside id
    obtain ⟨v, hv, hvshown, rfl, rfl⟩ := lookup ha
    obtain ⟨u, hu, hushown, rfl, rfl⟩ := lookup hb
    have hbelow := hf.below_of_not_outside hd hvshown hushown hin
    exact decide_eq_true (h.below (Forest.below_of_map hnodup hv hu hbelow))
  case apart =>
    intro a b sa sb ha hb hne hab hba
    obtain ⟨v, hv, hvshown, rfl, rfl⟩ := lookup ha
    obtain ⟨u, hu, hushown, rfl, rfl⟩ := lookup hb
    rcases hf.earlier_or_earlier hvshown hushown hne hab hba with hearlier | hearlier
    · exact .inl (h.earlier (Forest.earlier_of_map hnodup hv hu hearlier))
    · exact .inr (h.earlier (Forest.earlier_of_map hnodup hu hv hearlier))
  case sequence =>
    intro a b sa sb ha hb hbefore hsa hsb
    obtain ⟨v, hv, hvshown, rfl, rfl⟩ := lookup ha
    obtain ⟨u, hu, hushown, rfl, rfl⟩ := lookup hb
    obtain ⟨hne, hab, hba⟩ := hbefore.apart hsa hsb
    have hearlier := (hf.earlier_or_earlier hvshown hushown hne hab hba).resolve_right
      (hf.order _ _ hbefore hsa hsb)
    exact h.earlier (Forest.earlier_of_map hnodup hv hu hearlier)

/-- A block that declares a variable and returns it. -/
def Request.declareAndReturn : Request :=
  .statement ⟨1, .block [
    ⟨2, .declare ⟨"x", some (.ofForm 1 (.predefined .int32)), some ⟨1, .integer 1 10⟩, false,
      false⟩⟩,
    ⟨3, .returning (some ⟨2, .localVariable "x"⟩)⟩]⟩ none

/-- A class whose ancestor is also what its destructor is said to return. Swift writes the ancestor
only. -/
def Request.sharedType : Request :=
  let base := TypeRef.ofForm 1 (.named ⟨"Base", none, []⟩)
  let info : DeclarationInfo := ⟨.unspecified, none, [], none⟩
  let destructor : Member := ⟨1, "d", info, .none, false,
    .destructor ⟨[], [], some base, [], false, false, false⟩⟩
  .definition ⟨1, "Widget", info,
    .classType ⟨[], [base], [], [destructor], false, false, false, false⟩⟩ none false

end SourcePrinter
