import ContentApi.Proofs.Service.Entries

/-!
# Serving reads

However a request ends, the service leaves the store as it is: programs that only read can be put
together (`OnlyReads.bind`), and every step of a response is one, the expansion with all its
branches included.  So requests that are answered one after another do not see each other.  Each
gets the response that it would get alone, and the order in which they come, and how often, makes
no difference (`serve_independent`).
-/

namespace ContentApi

namespace Store

variable {α β : Type}

/-- A program that leaves every store as it is, whether it succeeds or fails. -/
def OnlyReads (program : ExceptT ApiError (StateM Store) α) : Prop :=
  ∀ store, (program store).2 = store

namespace OnlyReads

theorem ofExcept (result : Except ApiError α) : OnlyReads (ExceptT.mk (pure result)) :=
  fun _ => rfl

theorem lift {program : StateM Store α} (reads : ∀ store, (program store).2 = store) :
    OnlyReads (ExceptT.lift program) :=
  reads

/-- What follows a program that reads starts from the same store, if it is reached at all. -/
theorem bind {program : ExceptT ApiError (StateM Store) α}
    {next : α → ExceptT ApiError (StateM Store) β} (reads : OnlyReads program)
    (continues : ∀ value, OnlyReads (next value)) : OnlyReads (program >>= next) := by
  intro store
  show (ExceptT.bindCont next (program store).1 (program store).2).2 = store
  rw [reads store]
  cases (program store).1 with
  | error error => rfl
  | ok value => exact continues value store

end OnlyReads

theorem onlyReads_execute (resource : Resource) (context : Context) :
    OnlyReads (ExceptT.mk (Store.connection.execute resource context)) := by
  intro store
  show (Store.connection.execute resource context store).2 = store
  rw [store.execute_connection]

end Store

namespace Service

/-- A request that a service is to answer. -/
structure Inquiry where
  collection : String
  id : String
  relation : Option String
  parameters : Parameters

variable (service : Service)

/-- The response to an inquiry, as a program over a store. -/
def answer (inquiry : Inquiry) : StateM Store (Except ApiError Json) :=
  (service.get Store.connection inquiry.collection inquiry.id inquiry.relation
    inquiry.parameters).run

/-- The responses to inquiries that are answered one after another. -/
def serve : List Inquiry → StateM Store (List (Except ApiError Json))
  | [] => return []
  | inquiry :: rest => do
      let response ← service.answer inquiry
      let others ← serve rest
      return response :: others

/-- The response to an inquiry that is the only one. -/
def responseAlone (store : Store) (inquiry : Inquiry) : Except ApiError Json :=
  (service.answer inquiry store).1

/-! ## Single requests -/

theorem expand_reads (collection : String) (context : Context) (reply : Option Answer)
    (store : Store) :
    ((service.expander Store.connection).expand service.settings.maxDepth (some collection)
      context reply store).2 = store := by
  cases reply with
  | none => rfl
  | some answer =>
      obtain ⟨node, visits, expands⟩ :=
        service.exists_expands store collection context answer
      rw [(expandsTo_of_expands expands).ran]

/-- A request leaves the store as it is, at whatever step it ends. -/
theorem onlyReads_get (collection id : String) (relation : Option String)
    (parameters : Parameters) :
    Store.OnlyReads (service.get Store.connection collection id relation parameters) := by
  unfold get
  apply (Store.OnlyReads.ofExcept _).bind
  intro context
  apply (Store.OnlyReads.ofExcept _).bind
  intro resource
  apply (Store.onlyReads_execute resource context).bind
  intro reply
  apply (Store.OnlyReads.lift (service.expand_reads collection context reply)).bind
  intro node
  exact .ofExcept (body node)

theorem answer_eq (inquiry : Inquiry) (store : Store) :
    service.answer inquiry store = (service.responseAlone store inquiry, store) :=
  Prod.ext rfl (service.onlyReads_get _ _ _ _ store)

/-! ## Rows of requests -/

/-- Each of several requests gets the response that it gets alone. -/
theorem serve_eq (inquiries : List Inquiry) (store : Store) :
    service.serve inquiries store = (inquiries.map (service.responseAlone store), store) := by
  induction inquiries with
  | nil => rfl
  | cons inquiry rest ih =>
      rw [serve, bind_of_ran (service.answer_eq inquiry store), bind_of_ran ih]
      rfl

/-- Inquiries together with the responses that they get when they are answered in this order. -/
def transcript (store : Store) (inquiries : List Inquiry) :
    List (Inquiry × Except ApiError Json) :=
  inquiries.zip (service.serve inquiries store).1

theorem transcript_eq (store : Store) (inquiries : List Inquiry) :
    service.transcript store inquiries =
      inquiries.map fun inquiry => (inquiry, service.responseAlone store inquiry) := by
  rw [transcript, serve_eq, List.map_prod_left_eq_zip]

/--
Answering requests changes nothing.  Whatever requests a service answers, one after another and
whether they succeed or not, the store is the same behind them as before, and each response is the
one that the request would get alone.  So if the requests come in another order, or some of them
several times, all still get the same responses.
-/
theorem serve_independent (store : Store) (inquiries : List Inquiry) :
    (service.serve inquiries store).2 = store ∧
      (service.serve inquiries store).1 = inquiries.map (service.responseAlone store) ∧
      (∀ order : List Inquiry, order.Perm inquiries →
        (service.transcript store order).Perm (service.transcript store inquiries)) ∧
      ∀ others : List Inquiry, others ⊆ inquiries →
        service.transcript store others ⊆ service.transcript store inquiries := by
  refine ⟨?_, ?_, ?_, ?_⟩
  · rw [serve_eq]
  · rw [serve_eq]
  · intro order reordered
    rw [transcript_eq, transcript_eq]
    exact reordered.map _
  · intro others within
    rw [transcript_eq, transcript_eq]
    exact List.map_subset _ within

/-- A request for a site, with its members beside it. -/
def siteInquiry : Inquiry :=
  ⟨"sites", "site", none, .ofPairs [("relations", "members")]⟩

/-- A request for the hidden manager of the site. -/
def managerInquiry : Inquiry :=
  ⟨"people", "bob", none, .ofPairs []⟩

/-- The site is shown and its manager is not, whichever is asked for first and how often. -/
theorem serve_independent_swapped :
    ((ofSettings {}).responseAlone ((ofSettings {}).initialStore.run managedInSecret)
        siteInquiry).toOption.isSome ∧
      ((ofSettings {}).responseAlone ((ofSettings {}).initialStore.run managedInSecret)
        managerInquiry).toOption.isNone ∧
      [managerInquiry, siteInquiry].Perm [siteInquiry, managerInquiry] ∧
      ((ofSettings {}).transcript ((ofSettings {}).initialStore.run managedInSecret)
        [managerInquiry, siteInquiry]).Perm
        ((ofSettings {}).transcript ((ofSettings {}).initialStore.run managedInSecret)
          [siteInquiry, managerInquiry]) ∧
      [siteInquiry, siteInquiry] ⊆ [siteInquiry, managerInquiry] ∧
      (ofSettings {}).transcript ((ofSettings {}).initialStore.run managedInSecret)
        [siteInquiry, siteInquiry] ⊆
        (ofSettings {}).transcript ((ofSettings {}).initialStore.run managedInSecret)
          [siteInquiry, managerInquiry] := by
  have independent := serve_independent (ofSettings {})
    ((ofSettings {}).initialStore.run managedInSecret) [siteInquiry, managerInquiry]
  have swapped : [managerInquiry, siteInquiry].Perm [siteInquiry, managerInquiry] := .swap _ _ _
  have twice : [siteInquiry, siteInquiry] ⊆ [siteInquiry, managerInquiry] := by
    intro inquiry member
    simp only [List.mem_cons, List.not_mem_nil, or_false, or_self] at member
    rw [member]
    exact List.mem_cons_self
  refine ⟨by decide +kernel, by decide +kernel, swapped, ?_, twice, ?_⟩
  · exact independent.2.2.1 _ swapped
  · exact independent.2.2.2 _ twice

end Service

end ContentApi
