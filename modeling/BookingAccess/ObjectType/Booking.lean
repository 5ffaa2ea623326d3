/-
**The types of the booking domain.**

* `bookingTypes`: resources, requests, reservations, what they are run by, tags and domains;
* `Registry.booking`: the registry of these types.
-/

import BookingAccess.ObjectType.Registry

namespace BookingAccess

open ObjectClass Permission in
def bookingTypes : List ObjectType := [
  ObjectType.withRole { objectClass := resource } .owner [read, write, controlResource]
    |>.withRole .reservation [read, reserveResource]
    |>.withRole .reader [read],
  ObjectType.withRole { objectClass := reservationRequest } .owner
      [read, write, provideReservationRequest]
    |>.withRole .reservationRequestUser [read, provideReservationRequest]
    |>.withRole .reader [read]
    |>.withRule (.inherit "child_requests" reservationRequest)
    |>.withRule (.inherit "usages" reservationRequest)
    |>.withRule (PropagationRule.inherit "reservations" reservation
      |>.substituting .reservationRequestUser .reader),
  ObjectType.withRole { objectClass := reservation } .owner
      [read, write, provideReservationRequest]
    |>.withRole .reader [read]
    |>.withRule (.inherit "child_reservations" reservation)
    |>.withRule (.inherit "executable" executable)
    |>.withRule (.reference "reused_reservation" reservation),
  ObjectType.withRole { objectClass := executable } .owner [read, write]
    |>.withRole .reader [read],
  ObjectType.withRole { objectClass := tag } .owner [read, write]
    |>.withRole .reservation [read, reserveResource]
    |>.withRole .reader [read]
    |>.withPropagatable [.reader, .reservation]
    |>.withRule (PropagationRule.inherit "tagged_resources" resource).cascading
    |>.withRule (PropagationRule.inherit "tagged_foreign_resources" foreignResources).cascading,
  ObjectType.withRole { objectClass := domain } .owner [read, write]
    |>.withRole .reader [read],
  ObjectType.withRole { objectClass := foreignResources } .owner [read, write, controlResource]
    |>.withRole .reservation [read, reserveResource]
    |>.withRole .reader [read]]

/-- The registry of the booking types. -/
def Registry.booking : Registry :=
  ⟨.ofList (bookingTypes.map fun type => (type.objectClass, type))⟩

end BookingAccess
