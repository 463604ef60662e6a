import ClusterCache.Proof.Runs

/-!
# The service property against the history

The service property of a pod's record is resolved against the join index, which keeps a pod's
old memberships when its labels change: a relabelled pod keeps the name of a service that no
longer selects it, where adding the latest versions of the objects afresh gives it none. And
adding a pod sets the service property only when the join index gives the pod a service, so a
derived pod record that already has a `"service"` property keeps it when no service selects the
pod.
-/

namespace ClusterCache

namespace DatapointCache

/-- The key an event is about, when its object has one. -/
def Event.key : Event → Option UID
  | .add obj | .delete obj => (keyForObject obj).toOption

/-- The replay a history is compared with: the latest add of each object that was not deleted
after it, in the order of those adds. -/
def latestAdds : List Event → List Event
  | [] => []
  | .add obj :: es =>
      if es.any fun e => e.key == (keyForObject obj).toOption then latestAdds es
      else .add obj :: latestAdds es
  | .delete _ :: es => latestAdds es

/-- A pod relabelled away from the selector of its service keeps the service's name as its
service property, where adding the service and the relabelled pod afresh gives it none. -/
theorem relabelled_pod_keeps_service_property :
    let svc : Service := ⟨⟨"s", "web", "ns", none, none⟩, some ((∅ : Labels).insert "app" "foo")⟩
    let pod (app : String) : Resource :=
      ⟨⟨"p", "web-1", "ns", some ((∅ : Labels).insert "app" app), none⟩, []⟩
    let events := [Event.add (.service svc), .add (.pod (pod "foo")), .add (.pod (pod "bar"))]
    OneKindPerUID events ∧
      latestAdds events = [.add (.service svc), .add (.pod (pod "bar"))] ∧
      ∃ σ τ, (newDatapointCache false).run podRecordsOnly propertyLinks events = some σ ∧
        (newDatapointCache false).run podRecordsOnly propertyLinks (latestAdds events) = some τ ∧
        (σ.dimPropCache.lookup "p").map (fun d => d.properties.lookup "service") =
          some (some "web") ∧
        (τ.dimPropCache.lookup "p").map (fun d => d.properties.lookup "service") = some none := by
  intro svc pod events
  refine ⟨⟨fun u => if u = "s" then "Service" else "Pod", ?_⟩, rfl, _, _,
    Option.eq_some_of_isSome (by decide), Option.eq_some_of_isSome (by decide), by decide,
    by decide⟩
  rintro obj hobj u k hu
  simp only [events, List.mem_cons, Event.add.injEq, List.not_mem_nil, or_false] at hobj
  rcases hobj with rfl | rfl | rfl <;> cases hu <;> rfl

/-- Derivations whose pod record carries the pod's labels as its properties. -/
def labelProperties : Derivations :=
  { podRecordsOnly with
    dimPropsForPod := fun pod => some ⟨⟨"pod_uid", pod.uid⟩, pod.labels.getD ∅, ∅⟩ }

/-- A pod whose derived record has a `"service"` property keeps it though no service joins
it. -/
theorem derived_service_property_without_service :
    let pod : Resource :=
      ⟨⟨"p", "web-1", "ns", some ((∅ : Labels).insert "service" "frontend"), none⟩, []⟩
    (∀ pod, (labelProperties.dimPropsForPod pod).isSome) ∧ OneKindPerUID [.add (.pod pod)] ∧
      ∃ σ, (newDatapointCache false).run labelProperties propertyLinks [.add (.pod pod)] =
          some σ ∧
        (σ.dimPropCache.lookup "p").map (fun d => d.properties.lookup "service") =
          some (some "frontend") ∧
        σ.podServiceCache.podSvcUIDCache.lookup "p" = none := by
  intro pod
  refine ⟨fun _ => rfl, ⟨fun _ => "Pod", ?_⟩, _, Option.eq_some_of_isSome (by decide),
    by decide, by decide⟩
  rintro obj hobj u k hu
  simp only [List.mem_singleton, Event.add.injEq] at hobj
  subst hobj
  cases hu
  rfl

end DatapointCache

end ClusterCache
