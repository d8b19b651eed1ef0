import Shadownet.Provider.Identity

/-!
# The two record stores behind the identity server

The server and its commands over a directory of cards (`directoryReply`), which any implementation
of the store refines as long as it takes the texts it is handed (`reply_step`).

* `provider_stores_agree_iff`: a run of a deployment prints and answers the same over SQLite and
  over Postgres, and leaves the same cards, exactly when it hands the store no text with a zero
  byte or invalid UTF-8.
-/

namespace Shadownet.Provider

open Foundation Go

/-- The texts an event hands to the store. -/
def storeTexts (G : Runtime) (e : Event) : List Bytes :=
  match e.command with
  | .add _ a =>
    if e.fault = none ∧ a.check G = .ok () then columns (a.record G).versioned else []
  | .remove loc => if e.fault = none ∧ loc ≠ [] then [G.lower loc] else []
  | .get pathValue _ =>
    if e.fault = none ∧ G.lower pathValue ≠ [] then [G.lower pathValue] else []

/-- A lookup in a directory. -/
def lookupIn (cards : Directory) (loc : Bytes) : Except StoreError Record :=
  match cards loc with
  | none => throw .notFound
  | some c => pure ⟨c, Time.zero, Time.zero⟩

/-- What the server and its commands answer over a directory. -/
def directoryReply (G : Runtime) (S : Signer) (h : Handler) (cards : Directory) (e : Event) :
    Reply :=
  match e.command with
  | .add _ a =>
    (outcome () (runAdminAdd G h.providerDomain (fun _ => faulty e.fault (.ok ())) a)).2
  | .remove loc => (outcome () (runAdminRemove G (fun _ => faulty e.fault (.ok ())) loc)).2
  | .get pathValue ifNoneMatch =>
    .http (serveIdentity G S h pathValue ifNoneMatch fun loc => faulty e.fault (lookupIn cards loc))

section
variable {σ : Type} {G : Runtime} {S : Signer} {h : Handler} {I : StoreImpl σ}
  {Takes : Bytes → Prop} {cardOf : σ → Directory}

/-- What a command prints does not depend on what the store call leaves. -/
theorem reply_runAdminAdd {τ : Type} {domain : Bytes} {put : Record → Except StoreError σ}
    {put' : Record → Except StoreError τ} {a : AddArgs} {s : σ} {t : τ}
    (hput : a.check G = .ok () → (put (a.record G)).map (fun _ => ()) =
      (put' (a.record G)).map fun _ => ()) :
    (outcome s (runAdminAdd G domain put a)).2 = (outcome t (runAdminAdd G domain put' a)).2 := by
  rw [runAdminAdd, runAdminAdd]
  cases hcheck : a.check G with
  | error e => rfl
  | ok u =>
    have := hput hcheck
    cases hp : put (a.record G) <;> cases hp' : put' (a.record G) <;> rw [hp, hp'] at this <;>
      cases this <;> rfl

theorem reply_runAdminRemove {τ : Type} {delete : Bytes → Except StoreError σ}
    {delete' : Bytes → Except StoreError τ} {loc : Bytes} {s : σ} {t : τ}
    (hdelete : loc ≠ [] → (delete (G.lower loc)).map (fun _ => ()) =
      (delete' (G.lower loc)).map fun _ => ()) :
    (outcome s (runAdminRemove G delete loc)).2 = (outcome t (runAdminRemove G delete' loc)).2 := by
  rw [runAdminRemove, runAdminRemove]
  by_cases hne : loc = []
  · rw [if_pos hne, if_pos hne]
    rfl
  · rw [if_neg hne, if_neg hne]
    have := hdelete hne
    cases hp : delete (G.lower loc) <;> cases hp' : delete' (G.lower loc) <;>
      rw [hp, hp'] at this <;> cases this <;> rfl

/-- A lookup gives the card of the directory. -/
theorem serveIdentity_congr {pathValue ifNoneMatch : Bytes}
    {lookup lookup' : Bytes → Except StoreError Record}
    (hlookup : G.lower pathValue ≠ [] → (lookup (G.lower pathValue)).map Record.toProviderCard =
      (lookup' (G.lower pathValue)).map Record.toProviderCard) :
    serveIdentity G S h pathValue ifNoneMatch lookup =
      serveIdentity G S h pathValue ifNoneMatch lookup' := by
  rw [serveIdentity, serveIdentity]
  by_cases hne : G.lower pathValue = []
  · simp only [if_pos hne]
  · have := hlookup hne
    simp only [if_neg hne]
    cases hl : lookup (G.lower pathValue) <;> cases hl' : lookup' (G.lower pathValue) <;>
      rw [hl, hl'] at this
    · cases this
      rfl
    · cases this
    · cases this
    · rw [Except.map, Except.map, Except.ok.injEq] at this
      simp only [this]

/-- An implementation answers as the directory of its cards, when it takes the texts. -/
theorem reply_step (hI : Implements I Takes cardOf) (s : σ) (e : Event)
    (htexts : ∀ t ∈ storeTexts G e, Takes t) :
    (step G S h I s e).2 = directoryReply G S h (cardOf s) e := by
  obtain ⟨command, fault⟩ := e
  cases command with
  | add now a =>
    refine reply_runAdminAdd fun hcheck => ?_
    cases fault with
    | some detail => rfl
    | none =>
      have hcolumns : ∀ t ∈ columns (a.record G).versioned, Takes t := by
        rw [storeTexts] at htexts
        simpa only [hcheck, and_self, if_true] using htexts
      obtain ⟨s', hs', -⟩ := @Implements.put _ _ _ _ hI s now _ hcolumns
      simp only [faulty, hs']
      rfl
  | remove loc =>
    refine reply_runAdminRemove fun hne => ?_
    cases fault with
    | some detail => rfl
    | none =>
      have hlower : Takes (G.lower loc) := by
        rw [storeTexts] at htexts
        simpa only [ne_eq, hne, not_false_eq_true, and_self, if_true, List.mem_singleton,
          forall_eq] using htexts
      obtain ⟨s', hs', -⟩ := @Implements.delete _ _ _ _ hI s _ hlower
      simp only [faulty, hs']
      rfl
  | get pathValue ifNoneMatch =>
    refine congrArg Reply.http (serveIdentity_congr fun hne => ?_)
    cases fault with
    | some detail => rfl
    | none =>
      have hlower : Takes (G.lower pathValue) := by
        rw [storeTexts] at htexts
        simpa only [ne_eq, hne, not_false_eq_true, and_self, if_true, List.mem_singleton,
          forall_eq] using htexts
      cases hcard : cardOf s (G.lower pathValue) with
      | none =>
        have hget := @Implements.get_none _ _ _ _ hI _ _ hlower hcard
        simp only [faulty, hget, lookupIn, hcard]
        rfl
      | some c =>
        obtain ⟨r, hr, rfl⟩ := @Implements.get_some _ _ _ _ hI _ _ _ hlower hcard
        simp only [faulty, hr, lookupIn, hcard]
        rfl

end

/-! ## SQLite and Postgres -/

section
variable {G : Runtime} {S : Signer} {h : Handler} {s : SqliteStore} {p : PgStore} {e : Event}

/-- The two stores have the same cards, under names that Postgres takes. -/
structure Twins (s : SqliteStore) (p : PgStore) : Prop where
  cards : SqliteStore.cardOf s = PgStore.cardOf p
  names : ∀ k, ¬ IsText k → PgStore.cardOf p k = none

/-- The event hands the store texts that Postgres takes. -/
def Textual (G : Runtime) (e : Event) : Prop := ∀ t ∈ storeTexts G e, IsText t

theorem storeTexts_add {now : Time} {a : AddArgs} (hcheck : a.check G = .ok ()) :
    storeTexts G ⟨.add now a, none⟩ = columns (a.record G).versioned :=
  if_pos ⟨rfl, hcheck⟩

theorem storeTexts_remove {loc : Bytes} (hne : loc ≠ []) :
    storeTexts G ⟨.remove loc, none⟩ = [G.lower loc] :=
  if_pos ⟨rfl, hne⟩

/-- The commands that go through are the same for both stores. -/
theorem writeOf_textual (he : Textual G e) :
    writeOf G (fun _ => True) e = writeOf G IsText e := by
  obtain ⟨command, fault⟩ := e
  cases command with
  | add now a =>
    rw [writeOf_add, writeOf_add]
    refine if_congr ?_ rfl rfl
    refine and_congr_right fun hfault => and_congr_right fun hcheck => ?_
    subst hfault
    rw [Textual, storeTexts_add hcheck] at he
    exact ⟨fun _ => he, fun _ _ _ => trivial⟩
  | remove loc =>
    rw [writeOf_remove, writeOf_remove]
    refine if_congr ?_ rfl rfl
    refine and_congr_right fun hfault => and_congr_right fun hne => ?_
    subst hfault
    rw [Textual, storeTexts_remove hne, List.forall_mem_singleton] at he
    exact ⟨fun _ => he, fun _ => trivial⟩
  | get pathValue ifNoneMatch => rfl

theorem isText_of_write {w : Bytes × Option ProviderCard} (hw : writeOf G IsText e = some w) :
    IsText w.1 := by
  obtain ⟨command, fault⟩ := e
  cases command with
  | add now a =>
    rw [writeOf_add] at hw
    split_ifs at hw with hgo
    cases hw
    exact hgo.2.2 _ List.mem_cons_self
  | remove loc =>
    rw [writeOf_remove] at hw
    split_ifs at hw with hgo
    cases hw
    exact hgo.2.2
  | get pathValue ifNoneMatch => cases hw

/-- An event with texts that Postgres takes is answered the same, and leaves the same cards. -/
theorem Twins.answers (ht : Twins s p) (he : Textual G e) :
    (step G S h sqlite s e).2 = (step G S h pg p e).2 ∧
      Twins (step G S h sqlite s e).1 (step G S h pg p e).1 := by
  constructor
  · rw [reply_step sqlite_implements s e fun _ _ => trivial, reply_step pg_implements p e he,
      ht.cards]
  · have hs := @cards_step _ G S h _ _ _ _ sqlite_implements s e
    have hp := @cards_step _ G S h _ _ _ _ pg_implements p e
    rw [writeOf_textual he] at hs
    refine ⟨by rw [hs, hp, ht.cards], fun k hk => ?_⟩
    rw [hp]
    cases hw : writeOf G IsText e with
    | none => exact ht.names k hk
    | some w =>
      have hne : k ≠ w.1 := by
        rintro rfl
        exact hk (isText_of_write hw)
      exact (Function.update_of_ne hne _ _).trans (ht.names k hk)

/-- A text that Postgres does not take makes its answer another one. -/
theorem Twins.differs (ht : Twins s p) (he : ¬ Textual G e) :
    (step G S h sqlite s e).2 ≠ (step G S h pg p e).2 := by
  rw [reply_step sqlite_implements s e fun _ _ => trivial]
  obtain ⟨command, fault⟩ := e
  cases command with
  | add now a =>
    have hgo : fault = none ∧ a.check G = .ok () := by
      by_contra hno
      rw [Textual, storeTexts] at he
      simp [hno] at he
    obtain ⟨rfl, hcheck⟩ := hgo
    rw [Textual, storeTexts_add hcheck] at he
    obtain ⟨d, hd⟩ := @Implements.put_refused _ _ _ _ pg_implements p now _ he
    obtain ⟨m, hm⟩ := @runAdminAdd_error _ G h.providerDomain (fun r => pg.putRecord p now r) a
      fun _ => ⟨_, hd⟩
    have hpg : (step G S h pg p ⟨.add now a, none⟩).2 = .error m :=
      congrArg (fun x => (outcome p x).2) hm
    have hok : directoryReply G S h (SqliteStore.cardOf s) ⟨.add now a, none⟩ =
        .out (addedLine G h.providerDomain a) :=
      congrArg Prod.snd (@outcome_ok _ () _ _ _
        (@runAdminAdd_ok _ G h.providerDomain (fun _ => .ok ()) a _ hcheck rfl))
    rw [hpg, hok]
    exact Reply.noConfusion
  | remove loc =>
    have hgo : fault = none ∧ loc ≠ [] := by
      by_contra hno
      rw [Textual, storeTexts] at he
      simp [hno] at he
    obtain ⟨rfl, hne⟩ := hgo
    rw [Textual, storeTexts_remove hne, List.forall_mem_singleton] at he
    obtain ⟨d, hd⟩ := @Implements.delete_refused _ _ _ _ pg_implements p _ he
    obtain ⟨m, hm⟩ := @runAdminRemove_error _ G (fun loc => pg.deleteRecord p loc) loc
      fun _ => ⟨_, hd⟩
    have hpg : (step G S h pg p ⟨.remove loc, none⟩).2 = .error m :=
      congrArg (fun x => (outcome p x).2) hm
    have hok : directoryReply G S h (SqliteStore.cardOf s) ⟨.remove loc, none⟩ =
        .out (removedLine loc) :=
      congrArg Prod.snd (@outcome_ok _ () _ _ _
        (@runAdminRemove_ok _ G (fun _ => .ok ()) loc _ hne rfl))
    rw [hpg, hok]
    exact Reply.noConfusion
  | get pathValue ifNoneMatch =>
    have hgo : fault = none ∧ G.lower pathValue ≠ [] := by
      by_contra hno
      rw [Textual, storeTexts] at he
      simp [hno] at he
    obtain ⟨rfl, hne⟩ := hgo
    have htext : ¬ IsText (G.lower pathValue) := by
      rw [Textual, storeTexts] at he
      simpa [hne] using he
    obtain ⟨d, hd⟩ := @Implements.get_refused _ _ _ _ pg_implements p _ htext
    have hpg : (step G S h pg p ⟨.get pathValue ifNoneMatch, none⟩).2 =
        .http (httpError "internal error" 500) := by
      refine congrArg Reply.http ?_
      rw [serveIdentity]
      simp only [if_neg hne, faulty, hd]
    have hsqlite : directoryReply G S h (SqliteStore.cardOf s) ⟨.get pathValue ifNoneMatch, none⟩ =
        .http (httpError "unknown shadowname" 404) := by
      refine congrArg Reply.http ?_
      rw [serveIdentity]
      simp only [if_neg hne, faulty, lookupIn, ht.cards, ht.names _ htext]
      rfl
    rw [hpg, hsqlite]
    intro heq
    have hstatus : (404 : Nat) = 500 := congrArg Response.status (Reply.http.inj heq)
    cases hstatus

/-- The answers of a run. -/
def replies {σ : Type} (G : Runtime) (S : Signer) (h : Handler) (I : StoreImpl σ) (s : σ)
    (es : List Event) : List Reply :=
  (history (step G S h I) s es).map Prod.snd

theorem replies_agree_iff (ht : Twins s p) (es : List Event) :
    replies G S h sqlite s es = replies G S h pg p es ↔ ∀ e ∈ es, Textual G e := by
  induction es generalizing s p with
  | nil => exact ⟨fun _ _ he => absurd he List.not_mem_nil, fun _ => rfl⟩
  | cons e es ih =>
    rw [List.forall_mem_cons]
    by_cases he : Textual G e
    · obtain ⟨hreply, hnext⟩ := @Twins.answers G S h _ _ _ ht he
      rw [← ih hnext]
      have hcons : replies G S h sqlite s (e :: es) = replies G S h pg p (e :: es) ↔
          replies G S h sqlite (step G S h sqlite s e).1 es =
            replies G S h pg (step G S h pg p e).1 es :=
        ⟨fun h => (List.cons.inj h).2, fun h => congrArg₂ List.cons hreply h⟩
      rw [hcons]
      exact (and_iff_right he).symm
    · exact ⟨fun hrun => absurd (List.cons.inj hrun).1 (ht.differs he), fun h => absurd h.1 he⟩

/-- A run with such texts leaves the same cards. -/
theorem Twins.run (ht : Twins s p) {es : List Event} (hes : ∀ e ∈ es, Textual G e) :
    Twins (final (step G S h sqlite) s es) (final (step G S h pg) p es) := by
  induction es generalizing s p with
  | nil => exact ht
  | cons e es ih =>
    obtain ⟨he, hrest⟩ := List.forall_mem_cons.mp hes
    exact ih (@Twins.answers G S h _ _ _ ht he).2 hrest

/-- A run of a deployment is answered the same over both stores, from empty ones, exactly when no
text that reaches the store has a zero byte or is not valid UTF-8; and then the two stores hold
the same cards. -/
theorem provider_stores_agree_iff (G : Runtime) (S : Signer) (h : Handler) (es : List Event) :
    (replies G S h sqlite sqlite.empty es = replies G S h pg pg.empty es ↔
      ∀ e ∈ es, ∀ t ∈ storeTexts G e, IsText t) ∧
    ((∀ e ∈ es, ∀ t ∈ storeTexts G e, IsText t) →
      SqliteStore.cardOf (final (step G S h sqlite) sqlite.empty es) =
        PgStore.cardOf (final (step G S h pg) pg.empty es)) := by
  have hempty : Twins sqlite.empty pg.empty := ⟨rfl, fun _ _ => rfl⟩
  exact ⟨replies_agree_iff hempty es, fun hes => (@Twins.run G S h _ _ hempty _ hes).cards⟩

end

end Shadownet.Provider
