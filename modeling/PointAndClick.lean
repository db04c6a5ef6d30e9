import PointAndClick.CommandLine.Report
import PointAndClick.Cursor
import PointAndClick.Export.Png
import PointAndClick.Json.Reader
import PointAndClick.Main
import PointAndClick.Proofs.Boundary.Content
import PointAndClick.Proofs.Boundary.Delimiters
import PointAndClick.Proofs.Boundary.NameOrder
import PointAndClick.Proofs.Boundary.Soundness
import PointAndClick.Proofs.Decoding.Cursor
import PointAndClick.Proofs.Decoding.Descriptor
import PointAndClick.Proofs.Decoding.GroupRegion
import PointAndClick.Proofs.Decoding.Project
import PointAndClick.Proofs.Decoding.Region
import PointAndClick.Proofs.Encoding.Alignment
import PointAndClick.Proofs.Encoding.Prologue
import PointAndClick.Proofs.Encoding.SceneStream
import PointAndClick.Proofs.Encoding.SceneTable
import PointAndClick.Proofs.Geometry.Polygon
import PointAndClick.Proofs.Hotspot.Map
import PointAndClick.Proofs.Hotspot.Placement
import PointAndClick.Proofs.Hotspot.Preamble
import PointAndClick.Proofs.Navigation.Browser
import PointAndClick.Proofs.Navigation.Names
import PointAndClick.Proofs.Navigation.Occurrence
import PointAndClick.Proofs.Navigation.Saving
import PointAndClick.Proofs.Play.Answers
import PointAndClick.Proofs.Play.Arcade
import PointAndClick.Proofs.Play.Cleanup
import PointAndClick.Proofs.Play.Literals
import PointAndClick.Proofs.Play.Music
import PointAndClick.Proofs.Play.Outcomes
import PointAndClick.Proofs.Play.Pointer
import PointAndClick.Proofs.Play.Quitting
import PointAndClick.Proofs.Play.Refusals
import PointAndClick.Proofs.Play.Restored
import PointAndClick.Proofs.Play.SavedTimers
import PointAndClick.Proofs.Play.Silence
import PointAndClick.Proofs.Play.Timekeeping
import PointAndClick.Proofs.Play.TimerTicks
import PointAndClick.Proofs.Variables.Saving
import PointAndClick.Proofs.Variables.Words
