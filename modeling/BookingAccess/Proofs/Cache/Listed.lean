/-
**What the projections of objects list.**

The cached projection of an object lists an entry together with the users that its identity stood
for when the entry came into it. A call may list more, for which the directory is asked at that
time, and it may drop what is removed; what stays in the list stays as it was.

* `listed?`, `lists`: what is listed under a number; `resolved_iff`: when all of it is up to date;
* `Relisted`: what a call may do to it; `Relisted.ofQuiet`, `Relisted.trans`: a call that changes no
  grant, and one after another;
* `ListedFor`, `ListedFor.relisted`: entries are listed with the users that a directory of some
  earlier time names.
-/

import BookingAccess.Proofs.Cache.Tidy

namespace BookingAccess.Service

variable {given : EntryId → Option Entry} {before middle after service : Service}
  {lost more : EntryId → Prop} {directoryOf : Entry → Directory}

/-- What the cached projection of an object lists under a number. -/
def listed? (service : Service) (object : ObjectRef) (id : EntryId) : Option ResolvedEntry :=
  (service.cache.objectProjections.value? object).bind fun projection => projection.entries[id]?

/-- Is the entry listed in the cached projection of its object? -/
def lists (service : Service) (entry : Entry) : Bool :=
  (service.listed? entry.object entry.id).isSome

theorem listed?_eq_some_iff {object : ObjectRef} {id : EntryId} {holder : ResolvedEntry} :
    service.listed? object id = some holder ↔
      ∃ projection, service.cache.objectProjections.value? object = some projection ∧
        projection.entries[id]? = some holder :=
  Option.bind_eq_some_iff

/-- Everything listed is up to date when the cache is resolved. -/
theorem resolved_iff : Resolved service ↔
    ∀ {object : ObjectRef} {id : EntryId} {holder : ResolvedEntry},
      service.listed? object id = some holder →
        holder.users = service.directory.usersOf holder.entry.identity := by
  simp only [listed?_eq_some_iff]
  constructor
  · rintro resolved object id holder ⟨projection, cached, held⟩
    exact resolved object projection cached id holder held
  · intro upToDate object projection cached id holder held
    exact upToDate ⟨projection, cached, held⟩

/-- What is listed was listed before, or the directory was asked for its users; what was listed is
listed as it was, unless it is lost. -/
structure Relisted (lost : EntryId → Prop) (before after : Service) : Prop where
  newcomers : ∀ {object : ObjectRef} {id : EntryId} {holder},
    after.listed? object id = some holder → before.listed? object id = some holder ∨
      holder.users = before.directory.usersOf holder.entry.identity
  stays : ∀ {object : ObjectRef} {id : EntryId} {holder}, ¬ lost id →
    before.listed? object id = some holder → after.listed? object id = some holder

namespace Relisted

/-- What is listed is read off the projections of objects. -/
theorem ofObjects (same : after.cache.objectProjections = before.cache.objectProjections) :
    Relisted lost before after := by
  have listed (object : ObjectRef) (id : EntryId) :
      after.listed? object id = before.listed? object id := by
    unfold listed?
    rw [same]
  exact ⟨fun found => .inl (listed _ _ ▸ found), fun _ found => (listed _ _).trans found⟩

theorem ofQuiet (tidy : Tidy given before) (quiet : Quiet before after) :
    Relisted lost before after := by
  constructor
  · intro object id holder found
    obtain ⟨projection, found, held⟩ := listed?_eq_some_iff.mp found
    rcases quiet.objects object with same | ⟨_, loaded⟩
    · exact .inl (listed?_eq_some_iff.mpr ⟨projection, same ▸ found, held⟩)
    · rw [loaded] at found
      obtain rfl := Option.some.inj found
      rw [((lookup_objectProjectionOf tidy.numbered).mp held).2.2.2, tidy.usersFor_eq]
      exact .inr rfl
  · intro object id holder _ found
    obtain ⟨projection, found, held⟩ := listed?_eq_some_iff.mp found
    rcases quiet.objects object with same | ⟨absent, _⟩
    · exact listed?_eq_some_iff.mpr ⟨projection, same.trans found, held⟩
    · exact nomatch absent.symm.trans found

theorem trans (first : Relisted lost before middle) (second : Relisted lost middle after)
    (directory : middle.directory = before.directory) : Relisted lost before after where
  newcomers found := by
    rcases second.newcomers found with earlier | users
    · exact first.newcomers earlier
    · exact .inr (directory ▸ users)
  stays kept found := second.stays kept (first.stays kept found)

theorem mono (relisted : Relisted lost before after) (loses : ∀ id, lost id → more id) :
    Relisted more before after :=
  ⟨relisted.newcomers, fun kept => relisted.stays (mt (loses _) kept)⟩

/-- While the directory stays the same, what is listed stays up to date. -/
theorem resolved (relisted : Relisted lost before after)
    (directory : after.directory = before.directory) (resolved : Resolved before) :
    Resolved after := by
  refine resolved_iff.mpr fun found => ?_
  rw [directory]
  exact (relisted.newcomers found).elim (resolved_iff.mp resolved) id

end Relisted

/-- A quiet call leaves everything listed up to date. -/
theorem Resolved.quiet (tidy : Tidy given before) (quiet : Quiet before after)
    (resolved : Resolved before) : Resolved after := by
  have relisted : Relisted (fun _ => False) before after := .ofQuiet tidy quiet
  exact relisted.resolved quiet.directory resolved

/-! ### Users as of some time -/

/-- Stored entries are listed with the users that these directories name. -/
def ListedFor (directoryOf : Entry → Directory) (service : Service) : Prop :=
  ∀ entry users, service.store.Holds entry →
    service.listed? entry.object entry.id = some ⟨entry, users⟩ →
      users = (directoryOf entry).usersOf entry.identity

/-- Where the directories are those of the state for whatever is not listed yet, a call keeps to
them: what comes into a list is resolved by the directory of the state. -/
theorem ListedFor.relisted (listed : ListedFor directoryOf before)
    (relisted : Relisted lost before after)
    (stored : ∀ entry, after.store.Holds entry →
      ¬ lost entry.id ∧ (before.lists entry = true → before.store.Holds entry))
    (now : ∀ entry, before.lists entry = false → directoryOf entry = before.directory) :
    ListedFor directoryOf after := by
  intro entry users holds found
  obtain ⟨kept, held⟩ := stored entry holds
  cases earlier : before.listed? entry.object entry.id with
  | some holder =>
    have same : holder = ⟨entry, users⟩ :=
      Option.some.inj ((relisted.stays kept earlier).symm.trans found)
    have isListed : before.lists entry = true := by
      unfold lists
      rw [earlier]
      rfl
    exact listed entry users (held isListed) (same ▸ earlier)
  | none =>
    have notListed : before.lists entry = false := by
      unfold lists
      rw [earlier]
      rfl
    rw [now entry notListed]
    exact (relisted.newcomers found).resolve_left fun was => nomatch earlier.symm.trans was

end BookingAccess.Service
