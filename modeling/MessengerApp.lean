import MessengerApp.Library.Machine
import MessengerApp.CoreData.Schema
import MessengerApp.Channels.Manager
import MessengerApp.Messages.Manager
import MessengerApp.App
import MessengerApp.CoreData.SaveBlocks
import MessengerApp.Channels.Sync
import MessengerApp.Profile.Settings
import MessengerApp.Channels.Retained
import MessengerApp.Messages.Attribution
import MessengerApp.Messages.Orphans
import MessengerApp.Messages.Sync
import MessengerApp.Messages.Isolation
import MessengerApp.Screens.Tables
import MessengerApp.Screens.Selection
import MessengerApp.Screens.RowRequests
import MessengerApp.Channels.Redelivery
import MessengerApp.Profile.PhotoFile
import MessengerApp.Images.Picker
import MessengerApp.Images.Cell
import MessengerApp.Profile.Screen
import MessengerApp.Profile.Mode
import MessengerApp.Profile.Cancel
import MessengerApp.Profile.PhotoSaves
import MessengerApp.Messages.Reuse
import MessengerApp.Documents
import MessengerApp.Library.RowBatch
import MessengerApp.Profile.Indicator
import MessengerApp.Profile.Initials
import MessengerApp.Screens.RowUpdates
import MessengerApp.Messages.Blank
import MessengerApp.Library.Simulation
import MessengerApp.Library.Progress
import MessengerApp.Launches
import MessengerApp.Messages.Tracking
import MessengerApp.Messages.History
import MessengerApp.Channels.Provenance
import MessengerApp.Network.Device
import MessengerApp.Network.System
import MessengerApp.Network.Messages
import MessengerApp.Channels.Cell
import MessengerApp.Network.Channels
import MessengerApp.Messages.CatchUp
import MessengerApp.Network.Agreement
import MessengerApp.CoreData.Synchronous
import MessengerApp.Network.ChannelLists
import MessengerApp.Settling
import MessengerApp.Network.Reach
import MessengerApp.Messages.PlainText
import MessengerApp.Profile.PhotoButton
