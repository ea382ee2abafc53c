import Avon.Policy.Semantics

/-!
# The entity hierarchy is the pod hierarchy

`in` over the entities of a snapshot is membership in pods and classes (`isIn_pod`,
`isIn_deviceClass`, `isIn_device`).
-/

set_option autoImplicit false

namespace Avon.Cedar

open Avon.Lib.Reach

theorem Entity.deepEq_parents {e f : Entity} (h : e.deepEq f = true) (u : EntityUid) :
    u ∈ e.parents ↔ u ∈ f.parents := by
  simp only [deepEq, Bool.and_eq_true, List.all_eq_true, List.contains_iff_mem] at h
  exact ⟨h.1.2 u, h.2 u⟩

namespace Entities

variable (es : Entities)

/-- Entities of one name have the same parents, so it does not matter which one is found. -/
theorem mem_parentsOf {a b : EntityUid} :
    b ∈ parentsOf es.list a ↔ ∃ e ∈ es.list, e.uid = a ∧ b ∈ e.parents := by
  unfold parentsOf findEntity
  cases hfind : es.list.find? (fun e => e.uid = a) with
  | none =>
    simp only [List.not_mem_nil, false_iff, not_exists, not_and]
    intro e he hu
    simpa [hu] using List.find?_eq_none.mp hfind e he
  | some e =>
    have hmem := List.mem_of_find?_eq_some hfind
    have huid : e.uid = a := by simpa using List.find?_some hfind
    refine ⟨fun hb => ⟨e, hmem, huid, hb⟩, ?_⟩
    rintro ⟨f, hf, hfu, hb⟩
    exact (Entity.deepEq_parents (es.consistent f hf e hmem (hfu.trans huid.symm)) b).mp hb

theorem isIn_iff {a b : EntityUid} :
    es.isIn a b = true ↔
      a = b ∨ Relation.TransGen (Edge (parentsOf es.list)) a b := by
  have hreach : b ∈ ancestors es.list a ↔ Relation.TransGen (Edge (parentsOf es.list)) a b := by
    refine mem_reach_iff (s := (es.list.map Entity.uid).toFinset) (fun u hu => ?_) ?_
    · obtain ⟨p, hp⟩ := List.exists_mem_of_ne_nil _ hu
      obtain ⟨e, he, rfl, -⟩ := es.mem_parentsOf.mp hp
      exact List.mem_toFinset.mpr (List.mem_map_of_mem he)
    · simpa using List.toFinset_card_le (es.list.map Entity.uid)
  simp [isIn, hreach]

end Entities

end Avon.Cedar

namespace Avon.Policy

open Avon.Cedar Avon.Lib.Reach Semantics

theorem mem_entityList {data : SnapshotData} {now : ℤ} {e : Entity} :
    e ∈ entityList data now ↔
      (∃ pod ∈ data.pods, podEntity pod = e) ∨
      (∃ c ∈ data.deviceClasses, (⟨.deviceClass c, [], []⟩ : Entity) = e) ∨
      e = ⟨.external, [], []⟩ ∨ ∃ d ∈ data.devices, deviceEntity now d = e := by
  simp only [entityList, List.mem_append, List.mem_map, List.mem_singleton, or_assoc]

theorem list_of_buildEntities {data : SnapshotData} {now : ℤ} {es : Entities}
    (h : buildEntities data now = .ok es) : es.list = entityList data now := by
  unfold buildEntities Entities.fromEntities at h
  split at h
  · split at h
    · cases h
      rfl
    · cases h
  · cases h

section
variable {data : SnapshotData} {now : ℤ} {es : Entities} (hes : es.list = entityList data now)
include hes

/-! ### Edges -/

variable {x : EntityUid} {d c : Uuid}

theorem edge_pod {a : Uuid} :
    Edge (parentsOf es.list) (.pod a) x ↔ ∃ b, x = .pod b ∧ PodParent data a b := by
  rw [Edge, es.mem_parentsOf, hes]
  constructor
  · rintro ⟨e, he, hu, hx⟩
    rcases mem_entityList.mp he with ⟨pod, hpod, rfl⟩ | ⟨c, -, rfl⟩ | rfl | ⟨d, -, rfl⟩
    · have hid : pod.id = a := EntityUid.pod.inj hu
      obtain ⟨b, hb, rfl⟩ := List.mem_map.mp hx
      exact ⟨b, rfl, pod, hpod, hid, Option.mem_toList.mp hb⟩
    · cases hu
    · cases hu
    · cases hu
  · rintro ⟨b, rfl, pod, hpod, rfl, hparent⟩
    exact ⟨podEntity pod, mem_entityList.mpr (.inl ⟨pod, hpod, rfl⟩), rfl,
      List.mem_map.mpr ⟨b, by simp [hparent], rfl⟩⟩

theorem edge_device :
    Edge (parentsOf es.list) (.device d) x ↔
      (∃ p, x = .pod p ∧ ∃ dev ∈ data.devices, dev.id = d ∧ p ∈ dev.pods) ∨
      ∃ c, x = .deviceClass c ∧ HasClass data d c := by
  rw [Edge, es.mem_parentsOf, hes]
  constructor
  · rintro ⟨e, he, hu, hx⟩
    rcases mem_entityList.mp he with ⟨pod, -, rfl⟩ | ⟨c, -, rfl⟩ | rfl | ⟨dev, hdev, rfl⟩
    · cases hu
    · cases hu
    · cases hu
    · have hid : dev.id = d := EntityUid.device.inj hu
      rcases List.mem_append.mp hx with hx | hx
      · obtain ⟨p, hp, rfl⟩ := List.mem_map.mp hx
        exact .inl ⟨p, rfl, dev, hdev, hid, hp⟩
      · obtain ⟨c, hc, rfl⟩ := List.mem_map.mp hx
        exact .inr ⟨c, rfl, dev, hdev, hid, Option.mem_toList.mp hc⟩
  · rintro (⟨p, rfl, dev, hdev, rfl, hp⟩ | ⟨c, rfl, dev, hdev, rfl, hc⟩)
    · exact ⟨deviceEntity now dev, mem_entityList.mpr (.inr (.inr (.inr ⟨dev, hdev, rfl⟩))), rfl,
        List.mem_append_left _ (List.mem_map_of_mem hp)⟩
    · exact ⟨deviceEntity now dev, mem_entityList.mpr (.inr (.inr (.inr ⟨dev, hdev, rfl⟩))), rfl,
        List.mem_append_right _ (List.mem_map.mpr ⟨c, by simp [hc], rfl⟩)⟩

theorem not_edge_deviceClass :
    ¬ Edge (parentsOf es.list) (.deviceClass c) x := by
  rw [Edge, es.mem_parentsOf, hes]
  rintro ⟨e, he, hu, hx⟩
  rcases mem_entityList.mp he with ⟨pod, -, rfl⟩ | ⟨c, -, rfl⟩ | rfl | ⟨d, -, rfl⟩
  · cases hu
  · cases hx
  · cases hx
  · cases hu

theorem not_edge_external : ¬ Edge (parentsOf es.list) .external x := by
  rw [Edge, es.mem_parentsOf, hes]
  rintro ⟨e, he, hu, hx⟩
  rcases mem_entityList.mp he with ⟨pod, -, rfl⟩ | ⟨c, -, rfl⟩ | rfl | ⟨d, -, rfl⟩
  · cases hu
  · cases hx
  · cases hx
  · cases hu

/-! ### Paths -/

theorem reflTransGen_pod {a : Uuid} :
    Relation.ReflTransGen (Edge (parentsOf es.list)) (.pod a) x ↔
      ∃ b, x = .pod b ∧ Relation.ReflTransGen (PodParent data) a b := by
  constructor
  · intro h
    induction h with
    | refl => exact ⟨a, rfl, .refl⟩
    | tail _ hstep ih =>
      obtain ⟨b, rfl, hab⟩ := ih
      obtain ⟨c, rfl, hbc⟩ := (edge_pod hes).mp hstep
      exact ⟨c, rfl, hab.tail hbc⟩
  · rintro ⟨b, rfl, h⟩
    induction h with
    | refl => exact .refl
    | tail _ hstep ih => exact ih.tail ((edge_pod hes).mpr ⟨_, rfl, hstep⟩)

theorem reflTransGen_deviceClass :
    Relation.ReflTransGen (Edge (parentsOf es.list)) (.deviceClass c) x ↔ x = .deviceClass c := by
  rw [Relation.reflTransGen_iff_eq (fun b => not_edge_deviceClass hes)]

theorem transGen_device :
    Relation.TransGen (Edge (parentsOf es.list)) (.device d) x ↔
      (∃ p, x = .pod p ∧ InPod data d p) ∨ ∃ c, x = .deviceClass c ∧ HasClass data d c := by
  rw [Relation.TransGen.head'_iff]
  constructor
  · rintro ⟨b, hstep, hrest⟩
    rcases (edge_device hes).mp hstep with ⟨p, rfl, dev, hdev, hid, hp⟩ | ⟨c, rfl, hc⟩
    · obtain ⟨q, rfl, hq⟩ := (reflTransGen_pod hes).mp hrest
      exact .inl ⟨q, rfl, dev, hdev, hid, p, hp, hq⟩
    · exact .inr ⟨c, (reflTransGen_deviceClass hes).mp hrest, hc⟩
  rintro (⟨q, rfl, dev, hdev, hid, p, hp, hq⟩ | ⟨c, rfl, hc⟩)
  · exact ⟨.pod p, (edge_device hes).mpr (.inl ⟨p, rfl, dev, hdev, hid, hp⟩),
      (reflTransGen_pod hes).mpr ⟨q, rfl, hq⟩⟩
  · exact ⟨.deviceClass c, (edge_device hes).mpr (.inr ⟨c, rfl, hc⟩), .refl⟩

/-! ### `in` -/

theorem isIn_pod {p : Uuid} : es.isIn (.device d) (.pod p) = true ↔ InPod data d p := by
  rw [es.isIn_iff, transGen_device hes]
  simp

theorem isIn_deviceClass :
    es.isIn (.device d) (.deviceClass c) = true ↔ HasClass data d c := by
  rw [es.isIn_iff, transGen_device hes]
  simp

theorem isIn_device {d' : Uuid} : es.isIn (.device d) (.device d') = true ↔ d = d' := by
  rw [es.isIn_iff, transGen_device hes]
  simp

theorem isIn_external : es.isIn .external x = true ↔ x = .external := by
  rw [es.isIn_iff]
  constructor
  · rintro (rfl | h)
    · rfl
    · obtain ⟨b, hstep, -⟩ := Relation.TransGen.head'_iff.mp h
      exact absurd hstep (not_edge_external hes)
  · rintro rfl
    exact .inl rfl

end

end Avon.Policy
