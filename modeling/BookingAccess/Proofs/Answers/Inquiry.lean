/-
**What answers go by.**

A question about a user or about the holders of a role is answered from one projection: the cached
one, or else one that is loaded for it. So the answer is known from the state before the question,
and later states give the same one as long as they show the same projection.

* `Inquiry`: the three questions; `Inquiry.shown`: the answer to one of them;
* `ensures_answer`: the question gives it, unless a collaborator cannot be reached;
* `shown_iff_stored`: where nothing is cached, it is what the store says;
* `Inquiry.whenLoaded`: the state in which the answer was settled, found in the history.
-/

import BookingAccess.Proofs.Cache.Tidy
import BookingAccess.Proofs.Run
import BookingAccess.Proofs.Service.Loading
import BookingAccess.Proofs.Service.Reaching

namespace BookingAccess

open Service

variable {before after service : Service}

/-! ### What is shown -/

namespace Service

/-- The projection that the user is answered from. -/
def shownTo (service : Service) (user : UserId) : UserProjection :=
  (service.cache.userProjections.value? user).getD (service.userProjectionOf user)

/-- The projection that questions about the object are answered from. -/
def shownOn (service : Service) (object : ObjectRef) : ObjectProjection :=
  (service.cache.objectProjections.value? object).getD (service.objectProjectionOf object)

/-- What a load finds was shown before. -/
theorem Quiet.shownTo_eq (quiet : Quiet before after) (user : UserId) :
    after.shownTo user = before.shownTo user := by
  unfold shownTo
  rcases quiet.users user with same | ⟨missed, loaded⟩
  · rw [same, quiet.userProjectionOf_eq]
  · rw [missed, loaded, Option.getD_some, Option.getD_none]

theorem Quiet.shownOn_eq (quiet : Quiet before after) (object : ObjectRef) :
    after.shownOn object = before.shownOn object := by
  unfold shownOn
  rcases quiet.objects object with same | ⟨missed, loaded⟩
  · rw [same, quiet.objectProjectionOf_eq]
  · rw [missed, loaded, Option.getD_some, Option.getD_none]

theorem shownTo_of_cached {user : UserId} {projection : UserProjection}
    (cached : service.cache.userProjections.value? user = some projection) :
    service.shownTo user = projection := by
  unfold shownTo
  rw [cached]
  rfl

theorem shownOn_of_cached {object : ObjectRef} {projection : ObjectProjection}
    (cached : service.cache.objectProjections.value? object = some projection) :
    service.shownOn object = projection := by
  unfold shownOn
  rw [cached]
  rfl

theorem shownTo_of_missed {user : UserId}
    (missed : service.cache.userProjections.value? user = none) :
    service.shownTo user = service.userProjectionOf user := by
  unfold shownTo
  rw [missed]
  rfl

theorem shownOn_of_missed {object : ObjectRef}
    (missed : service.cache.objectProjections.value? object = none) :
    service.shownOn object = service.objectProjectionOf object := by
  unfold shownOn
  rw [missed]
  rfl

/-- **A user is answered from what is shown.** -/
theorem ensures_userProjection (user : UserId) :
    Ensures (userProjection user) service (fun projection _ => projection = service.shownTo user)
      (fun fault _ => fault.isOutage = true) := by
  unfold userProjection
  simp only [ensures_bind, ensures_pure]
  refine (ensures_loadedUserProjection user).mono ?_ fun _ _ => And.left
  rintro loaded after ⟨cached, quiet⟩
  rw [← quiet.shownTo_eq, shownTo_of_cached cached]

theorem ensures_objectProjection (object : ObjectRef) :
    Ensures (objectProjection object) service
      (fun projection _ => projection = service.shownOn object)
      (fun fault _ => fault.isOutage = true) := by
  unfold objectProjection
  simp only [ensures_bind, ensures_pure]
  refine (ensures_loadedObjectProjection object).mono ?_ fun _ _ => And.left
  rintro loaded after ⟨cached, quiet⟩
  rw [← quiet.shownOn_eq, shownOn_of_cached cached]

end Service

/-! ### Inquiries -/

/-- Does the user have the role or the permission on the object? Is the user among the holders of
the role? -/
inductive Inquiry
  | hasRole (user : UserId) (object : ObjectRef) (role : Role)
  | hasPermission (user : UserId) (object : ObjectRef) (permission : Permission)
  | isHolder (object : ObjectRef) (role : Role) (user : UserId)

namespace Inquiry

/-- The question that is put to the service. -/
def answer : Inquiry → Action Bool
  | .hasRole user object role => hasUserRole user object role
  | .hasPermission user object permission => hasUserPermission user object permission
  | .isHolder object role user => (·.contains user) <$> userIdsWithRole object role

/-- The answer that is given in this state. -/
def shown (service : Service) : Inquiry → Bool
  | .hasRole user object role => user == rootUserId || (service.shownTo user).hasRole object role
  | .hasPermission user object permission =>
    user == rootUserId || (service.shownTo user).hasPermission object permission
  | .isHolder object role user => ((service.shownOn object).usersWithRole role).contains user

/-- Is the projection in the cache? -/
def isCached (service : Service) : Inquiry → Bool
  | .hasRole user _ _ | .hasPermission user _ _ => (service.cache.userProjections.value? user).isSome
  | .isHolder object _ _ => (service.cache.objectProjections.value? object).isSome

/-- The store answers yes: it holds a grant on the object that concerns the user and suffices. -/
def Stored (service : Service) : Inquiry → Prop
  | .hasRole user object role => user = rootUserId ∨ ∃ entry, service.store.Holds entry ∧
      entry.identity ∈ service.directory.identitiesOf user ∧
      entry.object = object ∧ entry.role = role
  | .hasPermission user object permission => user = rootUserId ∨
      ∃ entry, service.store.Holds entry ∧
        entry.identity ∈ service.directory.identitiesOf user ∧ entry.object = object ∧
        permission ∈ service.registry.rolePermissions object.objectClass entry.role
  | .isHolder object role user => ∃ entry, service.store.Holds entry ∧
      (service.usersFor entry.identity).contains user = true ∧
      entry.object = object ∧ entry.role = role

variable {inquiry : Inquiry}

/-- **The question gives what is shown**, unless a collaborator cannot be reached. -/
theorem ensures_answer (inquiry : Inquiry) :
    Ensures inquiry.answer service (fun answer _ => answer = inquiry.shown service)
      (fun fault _ => fault.isOutage = true) := by
  cases inquiry with
  | hasRole user object role =>
    show Ensures (hasUserRole user object role) service
      (fun answer _ => answer = (user == rootUserId || _)) _
    unfold hasUserRole
    cases user == rootUserId with
    | true => rfl
    | false =>
      simp only [Bool.false_eq_true, if_false, Bool.false_or, ensures_bind, ensures_pure]
      exact (ensures_userProjection user).mono (fun _ _ same => same ▸ rfl) fun _ _ => id
  | hasPermission user object permission =>
    show Ensures (hasUserPermission user object permission) service
      (fun answer _ => answer = (user == rootUserId || _)) _
    unfold hasUserPermission
    cases user == rootUserId with
    | true => rfl
    | false =>
      simp only [Bool.false_eq_true, if_false, Bool.false_or, ensures_bind, ensures_pure]
      exact (ensures_userProjection user).mono (fun _ _ same => same ▸ rfl) fun _ _ => id
  | isHolder object role user =>
    refine ensures_map.mpr ?_
    unfold userIdsWithRole
    simp only [ensures_bind, ensures_pure]
    exact (ensures_objectProjection object).mono (fun _ _ same => same ▸ rfl) fun _ _ => id

theorem shown_of_answer {answer : Bool}
    (answered : (inquiry.answer.run.run service).1 = .ok answer) :
    inquiry.shown service = answer :=
  ((ensures_answer inquiry).of_answer answered).symm

theorem reaches_answer (inquiry : Inquiry) : Reaches AccessError.isOutage inquiry.answer := by
  cases inquiry with
  | hasRole user object role =>
    show Reaches _ (hasUserRole user object role)
    unfold hasUserRole userProjection
    split
    · exact .pure
    · exact .bind (.bind (reaches_loadedUserProjection user) fun _ => .pure) fun _ => .pure
  | hasPermission user object permission =>
    show Reaches _ (hasUserPermission user object permission)
    unfold hasUserPermission userProjection
    split
    · exact .pure
    · exact .bind (.bind (reaches_loadedUserProjection user) fun _ => .pure) fun _ => .pure
  | isHolder object role user =>
    have lists : Reaches AccessError.isOutage (userIdsWithRole object role) :=
      .bind (.bind (reaches_loadedObjectProjection object) fun _ => .pure) fun _ => .pure
    exact .bind lists fun _ => .pure

/-- While every collaborator can be reached, there is an answer. -/
theorem exists_answer (reached : service.outages = .none) (inquiry : Inquiry) :
    (inquiry.answer.run.run service).1 = .ok (inquiry.shown service) := by
  obtain ⟨answer, answered, same⟩ :=
    exists_answer_of_reaches reached inquiry.reaches_answer (ensures_answer inquiry)
  rw [answered, same]

/-! ### Answers from the store -/

theorem exists_lookup_userProjectionOf (numbered : service.store.Numbered) {user : UserId}
    {suits : Entry → Prop} :
    (∃ (id : EntryId) (entry : Entry),
      (service.userProjectionOf user).entries[id]? = some entry ∧ suits entry) ↔
    ∃ entry, service.store.Holds entry ∧
      entry.identity ∈ service.directory.identitiesOf user ∧ suits entry := by
  constructor
  · rintro ⟨id, entry, found, suitable⟩
    obtain ⟨holds, goes, _⟩ := (lookup_userProjectionOf numbered).mp found
    exact ⟨entry, holds, goes, suitable⟩
  · rintro ⟨entry, holds, goes, suitable⟩
    exact ⟨entry.id, entry, (lookup_userProjectionOf numbered).mpr ⟨holds, goes, rfl⟩, suitable⟩

/-- **Where no projection is cached, the answer is that of the store.** -/
theorem shown_iff_stored (numbered : service.store.Numbered)
    (missed : inquiry.isCached service = false) :
    inquiry.shown service = true ↔ inquiry.Stored service := by
  cases inquiry with
  | hasRole user object role =>
    have loads := shownTo_of_missed (Option.not_isSome_iff_eq_none.mp (ne_true_of_eq_false missed))
    have settled : (service.userProjectionOf user).Settled service.registry :=
      UserProjection.settled_ofEntries _
    show (user == rootUserId || (service.shownTo user).hasRole object role) = true ↔ _ ∨ _
    rw [Bool.or_eq_true, beq_iff_eq, loads, settled.hasRole_iff,
      exists_lookup_userProjectionOf numbered]
  | hasPermission user object permission =>
    have loads := shownTo_of_missed (Option.not_isSome_iff_eq_none.mp (ne_true_of_eq_false missed))
    have settled : (service.userProjectionOf user).Settled service.registry :=
      UserProjection.settled_ofEntries _
    show (user == rootUserId || (service.shownTo user).hasPermission object permission) = true ↔
      _ ∨ _
    rw [Bool.or_eq_true, beq_iff_eq, loads, settled.hasPermission_iff,
      exists_lookup_userProjectionOf numbered]
  | isHolder object role user =>
    have loads := shownOn_of_missed (Option.not_isSome_iff_eq_none.mp (ne_true_of_eq_false missed))
    have summed : (service.objectProjectionOf object).Summed :=
      ObjectProjection.summed_ofEntries _ _
    show ((service.shownOn object).usersWithRole role).contains user = true ↔ _
    rw [loads, summed.contains_iff]
    constructor
    · rintro ⟨id, holder, found, hasRole, contains⟩
      obtain ⟨holds, here, -, resolved⟩ := (lookup_objectProjectionOf numbered).mp found
      exact ⟨holder.entry, holds, resolved ▸ contains, here, hasRole⟩
    · rintro ⟨entry, holds, contains, here, hasRole⟩
      have found : (service.objectProjectionOf object).entries[entry.id]? =
          some ⟨entry, service.usersFor entry.identity⟩ :=
        (lookup_objectProjectionOf numbered).mpr ⟨holds, here, rfl, rfl⟩
      exact ⟨entry.id, ⟨entry, _⟩, found, hasRole, contains⟩

/-! ### Answers over a history -/

/-- **The state in which the answer was settled**: the last one in which the projection was not in
the cache, as far back as the history goes. -/
def whenLoaded (inquiry : Inquiry) : List Occurrence → Service → Service
  | [], service => service
  | occurrence :: past, service =>
    if inquiry.isCached service then inquiry.whenLoaded past occurrence.before else service

/-- What is shown has been so since the answer was settled, if no event changes a cached answer. -/
theorem shown_whenLoaded {rule : Occurrence → Prop} {start : Service} {past : List Occurrence}
    (stays : ∀ occurrence, rule occurrence → inquiry.isCached occurrence.after = true →
      inquiry.shown occurrence.after = inquiry.shown occurrence.before)
    (run : Run rule start past service) :
    inquiry.shown (inquiry.whenLoaded past service) = inquiry.shown service := by
  induction run with
  | start => rfl
  | @next past service event _ ruled ih =>
    unfold whenLoaded
    split
    · rename_i cached
      exact ih.trans (stays ⟨service, event⟩ ruled cached).symm
    · rfl

/-- The state in which the answer was settled was reached. -/
theorem run_whenLoaded (inquiry : Inquiry) {rule : Occurrence → Prop} {start : Service} {past : List Occurrence}
    (run : Run rule start past service) :
    ∃ since, Run rule start since (inquiry.whenLoaded past service) := by
  induction run with
  | start => exact ⟨[], .start⟩
  | @next past service event before ruled ih =>
    unfold whenLoaded
    split
    · exact ih
    · exact ⟨_, .next event before ruled⟩

/-- If the projection was in the cache even then, it was from the start. -/
theorem whenLoaded_eq_start {rule : Occurrence → Prop} {start : Service} {past : List Occurrence}
    (run : Run rule start past service)
    (cached : inquiry.isCached (inquiry.whenLoaded past service) = true) :
    inquiry.whenLoaded past service = start := by
  induction run with
  | start => rfl
  | @next past service event _ _ ih =>
    unfold whenLoaded at cached ⊢
    split at cached
    · rw [if_pos ‹_›]
      exact ih cached
    · exact absurd cached ‹_›

/-! ### Answers that stay the same -/

theorem shown_of_quiet (quiet : Quiet before after) :
    inquiry.shown after = inquiry.shown before := by
  cases inquiry with
  | hasRole user object role =>
    exact congrArg (fun projection => user == rootUserId || projection.hasRole object role)
      (quiet.shownTo_eq user)
  | hasPermission user object permission =>
    exact congrArg
      (fun projection => user == rootUserId || projection.hasPermission object permission)
      (quiet.shownTo_eq user)
  | isHolder object role user =>
    exact congrArg (fun projection => (projection.usersWithRole role).contains user)
      (quiet.shownOn_eq object)

/-- A call that changes no grant leaves projections in the cache. -/
theorem isCached_of_quiet (quiet : Quiet before after) (cached : inquiry.isCached before = true) :
    inquiry.isCached after = true := by
  have user (user : UserId) (found : (before.cache.userProjections.value? user).isSome = true) :
      (after.cache.userProjections.value? user).isSome = true := by
    rcases quiet.users user with same | ⟨_, loaded⟩
    · rwa [same]
    · rw [loaded]
      rfl
  cases inquiry with
  | hasRole asked | hasPermission asked => exact user asked cached
  | isHolder object role asked =>
    show (after.cache.objectProjections.value? object).isSome = true
    rcases quiet.objects object with same | ⟨_, loaded⟩
    · rw [same]
      exact cached
    · rw [loaded]
      rfl

theorem isCached_congr (cache : after.cache = before.cache) :
    inquiry.isCached after = inquiry.isCached before := by
  cases inquiry with
  | hasRole | hasPermission | isHolder => simp only [isCached, cache]

theorem isCached_of_cleared {cache : Cache} (cleared : service.cache = cache.clear) :
    inquiry.isCached service = false := by
  cases inquiry with
  | hasRole | hasPermission | isHolder =>
    simp only [isCached, cleared, Cache.clear, Shelf.value?_clear, Option.isSome_none]

/-- Nothing but the cache matters where the projection is in it. -/
theorem shown_of_cached (cache : after.cache = before.cache)
    (cached : inquiry.isCached before = true) : inquiry.shown after = inquiry.shown before := by
  have user (user : UserId) (found : (before.cache.userProjections.value? user).isSome = true) :
      after.shownTo user = before.shownTo user := by
    obtain ⟨projection, held⟩ := Option.isSome_iff_exists.mp found
    rw [shownTo_of_cached held, shownTo_of_cached (cache ▸ held)]
  cases inquiry with
  | hasRole asked | hasPermission asked => simp only [shown, user asked cached]
  | isHolder object role asked =>
    obtain ⟨projection, held⟩ := Option.isSome_iff_exists.mp cached
    simp only [shown, shownOn_of_cached held, shownOn_of_cached (cache ▸ held)]

/-- Where the projection is in neither cache, what it would be loaded from matters. -/
theorem shown_of_missed (registry : after.registry = before.registry)
    (directory : after.directory = before.directory) (usersFor : after.usersFor = before.usersFor)
    (entries : after.store.entries = before.store.entries)
    (missed : inquiry.isCached before = false) (missedAfter : inquiry.isCached after = false) :
    inquiry.shown after = inquiry.shown before := by
  have entryList : after.store.entryList = before.store.entryList := congrArg (·.values) entries
  have user {user : UserId} (missed : (before.cache.userProjections.value? user).isSome = false)
      (missedAfter : (after.cache.userProjections.value? user).isSome = false) :
      after.shownTo user = before.shownTo user := by
    rw [shownTo_of_missed (Option.not_isSome_iff_eq_none.mp (ne_true_of_eq_false missed)),
      shownTo_of_missed (Option.not_isSome_iff_eq_none.mp (ne_true_of_eq_false missedAfter))]
    unfold userProjectionOf Store.entriesOf
    rw [registry, directory, entryList]
  cases inquiry with
  | hasRole asked | hasPermission asked => simp only [shown, user missed missedAfter]
  | isHolder object role asked =>
    show ((after.shownOn object).usersWithRole role).contains asked = _
    rw [shownOn_of_missed (Option.not_isSome_iff_eq_none.mp (ne_true_of_eq_false missedAfter))]
    unfold objectProjectionOf Store.entriesOn
    rw [usersFor, entryList]
    show _ = ((before.shownOn object).usersWithRole role).contains asked
    rw [shownOn_of_missed (Option.not_isSome_iff_eq_none.mp (ne_true_of_eq_false missed))]
    rfl

end Inquiry

end BookingAccess
