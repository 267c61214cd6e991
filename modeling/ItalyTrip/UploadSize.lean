import ItalyTrip.Router

namespace ItalyTrip.Photos

variable {app : Application}

/-- An upload of this file, whose body is longer than the file by what frames it and the other fields. -/
def framed (framing : Nat) (content : Bytes) (clientID takenAt : String) : UploadRequest :=
  ⟨framing + content.length, .ok (.ok content), clientID, takenAt⟩

end ItalyTrip.Photos
